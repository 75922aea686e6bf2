import AfriPay.Payments.Courses

/-!
# The course of a submit

What a `submit` knows on its way, and what holds at its two ends: it amends its
own intent only, with the hash of the envelope that was accepted for it; it
returns the intent with that hash; and a conflict means that the hash cannot be
claimed.
-/

namespace AfriPay.Payments
open Calls Discipline Text Stellar Storage

/-- `parsePayment` accepts the envelope for the stored intent, and this is its hash. -/
def AcceptedHash {C : Type} (d : Deployment) (id : String) (signedXdr : JsString) (s : StoreState C) (hash : String) : Prop :=
  ∃ i tx, s.world.intent d id = some i ∧ parsePayment d.sdk signedXdr (some i.toNativePayment) = .ok tx ∧ toHex tx.hash = hash

/-- A conflict means that the hash of the envelope, if it is accepted, cannot be claimed for the intent. -/
def Barred {C : Type} (d : Deployment) (id : String) (signedXdr : JsString) (e : Exception) (s : StoreState C) : Prop :=
  e.className = .conflict → ∃ i, s.world.intent d id = some i ∧
    ∀ tx, parsePayment d.sdk signedXdr (some i.toNativePayment) = .ok tx → Holdings.Contested (s.world.intent d) id (toHex tx.hash)

/-- The operations of a submit, each with what the submit knows when it issues it. -/
inductive SubmitOp {C : Type} (d : Deployment) (id : String) (signedXdr : JsString) (s : StoreState C) : Op → Prop where
  | quiet {op : Op} (quiet : op.quiet = true) : SubmitOp d id signedXdr s op
  | claims {op : Op} {hash : String} (accepted : AcceptedHash d id signedXdr s hash) (claims : op.claims = some (id, hash)) :
      SubmitOp d id signedXdr s op
  | handsOver {tx : Transaction} {i : PaymentIntent} (here : s.world.intent d id = some i)
      (parsed : parsePayment d.sdk signedXdr (some i.toNativePayment) = .ok tx)
      (held : i.transactionHash = some (.str (toHex tx.hash))) : SubmitOp d id signedXdr s (.stellar (.submitTransaction tx))
  | settles {op : Op} {hash : String} {status : PaymentStatus} (accepted : AcceptedHash d id signedXdr s hash)
      (settler : Settler (.str hash) status s) (settles : op.settles = some (id, .str hash, status)) : SubmitOp d id signedXdr s op

section

variable {C α : Type} {d : Deployment} {body : C → PaymentProg α}
  {D : Discipline (⟨body, exec d⟩ : System C Op Op.Answer Exception α World)} {tid : Nat} {c : C} {id hash : String}
  {signedXdr : JsString} {s s' : StoreState C}

theorem AcceptedHash.later (on : OnStore d D) (h : AcceptedHash d id signedXdr s hash) (inv : D.Inv s) (later : D.Later s s') :
    AcceptedHash d id signedXdr s' hash := by
  obtain ⟨i, tx, here, parsed, hex⟩ := h
  obtain ⟨i', here', retains⟩ := on.retained inv later here
  exact ⟨i', tx, here', retains.payment ▸ parsed, hex⟩

theorem AcceptedHash.nonempty (h : AcceptedHash d id signedXdr s hash) : hash ≠ "" := by
  obtain ⟨-, tx, -, -, rfl⟩ := h
  exact toHex_ne_empty tx.hash

theorem AcceptedHash.barred (on : OnStore d D) (h : AcceptedHash d id signedXdr s hash)
    (contested : Holdings.Contested (s.world.intent d) id hash) (inv : D.Inv s) (later : D.Later s s') (e : Exception) :
    Barred d id signedXdr e s' := by
  intro _
  have contested := Contested.later on contested h.nonempty inv later
  obtain ⟨i, tx, here, parsed, rfl⟩ := h
  obtain ⟨i', here', retains⟩ := on.retained inv later here
  refine ⟨i', here', fun tx' parsed' => ?_⟩
  rw [retains.payment, parsed] at parsed'
  cases parsed'
  exact contested

/-- A submit claims for its intent, the hash of the envelope. -/
theorem SubmitOp.of_claims {op : Op} (h : SubmitOp d id signedXdr s op) {j : String} (claims : op.claims = some (j, hash)) :
    j = id ∧ AcceptedHash d id signedXdr s hash := by
  cases h with
  | quiet quiet => rcases op.claims_eq claims with rfl | ⟨now, rfl⟩ <;> cases quiet
  | claims accepted own =>
    obtain ⟨rfl, rfl⟩ := Prod.mk.inj (Option.some.inj (own.symm.trans claims))
    exact ⟨rfl, accepted⟩
  | handsOver => cases claims
  | settles _ _ own => rcases op.claims_eq claims with rfl | ⟨now, rfl⟩ <;> cases own

/-- It settles its intent, with what Horizon has answered for this hash. -/
theorem SubmitOp.of_settles {op : Op} (h : SubmitOp d id signedXdr s op) {j : String} {hash : Json} {status : PaymentStatus}
    (settles : op.settles = some (j, hash, status)) :
    j = id ∧ ∃ text, hash = .str text ∧ AcceptedHash d id signedXdr s text ∧ Settler (.str text) status s := by
  cases h with
  | quiet quiet => rcases op.settles_eq settles with rfl | ⟨now, rfl⟩ <;> cases quiet
  | claims _ own => rcases op.settles_eq settles with rfl | ⟨now, rfl⟩ <;> cases own
  | handsOver => cases settles
  | settles accepted settler own =>
    obtain ⟨rfl, same⟩ := Prod.mk.inj (Option.some.inj (own.symm.trans settles))
    obtain ⟨rfl, rfl⟩ := Prod.mk.inj same
    exact ⟨rfl, _, rfl, accepted, settler⟩

theorem lenient_submit (d : Deployment) (id : String) (signedXdr : JsString) :
    @Lenient C (SubmitOp d id signedXdr) (Barred d id signedXdr) where
  quiet := .quiet
  calm other conflict := (other conflict).elim

/-- **The course of a submit**, operation by operation. -/
theorem course_submit (on : OnStore d D) {Q : Option PaymentIntent → StoreState C → Prop}
    (post : ∀ hash r s', D.Later s s' → D.Inv s' → AcceptedHash d id signedXdr s' hash → Answered hash r s' → Q r s') :
    D.Course tid c (SubmitOp d id signedXdr) Q (Barred d id signedXdr) (PaymentIntentService.submit d id signedXdr) s := by
  have lenient := @lenient_submit C d id signedXdr
  unfold PaymentIntentService.submit
  refine course_bind (course_get lenient fun intent s₁ later₁ inv₁ here => ?_)
  refine course_bind (course_ofExcept (fun tx parsed => ?_) fun e failed _ => ⟨_, here, fun tx parsed => ?_⟩)
  · have accepted : AcceptedHash d id signedXdr s₁ (toHex tx.hash) := ⟨intent, tx, here, parsed, rfl⟩
    have nonempty := accepted.nonempty
    refine course_bind (course_claimHash on lenient nonempty inv₁ here ?_ ?_ ?_)
    · intro s₂ op later claims
      exact .claims (accepted.later on inv₁ later) claims
    · intro claimed s₂ later₂ inv₂ stored held
      have later := D.trans later₁ later₂
      have accepted₂ := accepted.later on inv₁ later₂
      have holds : HoldsHash d id (toHex tx.hash) s₂ := ⟨claimed, stored, held⟩
      apply course_ite
      · intro _
        exact post _ _ s₂ later inv₂ accepted₂ (on.answered inv₂ stored held)
      · intro _
        refine course_bind (course_submitSigned lenient parsed ?_ fun r s₃ later₃ inv₃ settler => ?_)
        · intro s₃ later₃
          obtain ⟨i, here₃, retains⟩ := on.retained inv₁ (D.trans later₂ later₃) here
          obtain ⟨i', here', held₃⟩ := holds.later on nonempty inv₂ later₃
          obtain rfl : i = i' := Option.some.inj (here₃.symm.trans here')
          exact .handsOver here₃ (retains.payment ▸ parsed) held₃
        have accepted₃ := accepted₂.later on inv₂ later₃
        refine course_settle on lenient inv₃ ?_ ?_ ?_
        · intro s₄ op later₄ settles
          exact .settles (accepted₃.later on inv₃ later₄) (settler.later on later₄) settles
        · intro r s₄ later₄ inv₄ answered
          exact post _ _ s₄ (D.trans (D.trans later later₃) later₄) inv₄ (accepted₃.later on inv₃ later₄)
            (answered _ nonempty rfl (holds.later on nonempty inv₂ later₃))
        · intro free
          exact (free _ nonempty rfl (holds.later on nonempty inv₂ later₃)).elim
    · intro s₂ s₃ e later inv₂ contested later'
      exact (accepted.later on inv₁ later).barred on contested inv₂ later' e
  · have parsed : parsePayment d.sdk signedXdr (some intent.toNativePayment) = .ok tx := parsed
    rw [parsed] at failed
    cases failed

end

end AfriPay.Payments
