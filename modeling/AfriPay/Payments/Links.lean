import AfriPay.Payments.Guarantees
import AfriPay.Wallet.Amount

/-!
# Payment links read back

In memory a link comes back as it was saved. From the database its amount comes
back as the text of a `NUMERIC(30,12)`, with twelve fraction digits, which no
amount pattern accepts: an intent's amount is stripped of its zeros on the way
out, a link's is not.
-/

namespace AfriPay.Payments
open Calls Discipline Text Stellar Storage Ledger Wallet

/-- The amount returned can be paid, and is the one asked for: the service, the
form and the signing wallet all read `text` as the amount of the request. -/
structure Reads (text amount : String) : Prop where
  service : ∃ units, stroops amount = .ok units ∧ stroops text = .ok units
  form : matchesAmountPattern text = true
  signing : ∃ units, stroops amount = .ok units ∧ amountUnits text = .ok units

/-- What a link created with `amount` has to return. -/
def Payable : Option Json → Option String → Prop
  | none, returned => returned = none
  | some v, returned => ∃ amount text, v = .str amount ∧ returned = some text ∧ Reads text amount

/-- An accepted amount reads as itself. -/
theorem Reads.self {s : String} {n : Nat} (h : stroops s = .ok n) : Reads s s := by
  obtain ⟨fits, rfl⟩ := stroops_ok h
  exact ⟨⟨_, h, h⟩, fits, ⟨_, h, by rw [amountUnits, if_pos fits]⟩⟩

/-- The text of a `NUMERIC(30,12)` is no amount. -/
theorem not_reads_fixedPoint (units : Nat) (amount : String) : ¬ Reads (fixedPoint 12 units) amount := by
  intro h
  have form := h.form
  rw [matchesAmountPattern, matchesDecimal_fixedPoint (by decide) (by decide)] at form
  cases form

/-- The amount of an accepted link request. -/
theorem linkAmountOf_ok {v : Option Json} {amount : Option String} (h : linkAmountOf v = .ok amount) :
    (v = none ∧ amount = none) ∨ ∃ a n, v = some (.str a) ∧ amount = some a ∧ stroops a = .ok n := by
  cases v with
  | none => cases h; exact .inl ⟨rfl, rfl⟩
  | some v =>
    right
    cases v with
    | str a =>
      cases ha : stroops a with
      | error e => simp [linkAmountOf, stroopsOf, ha, bind, Except.bind] at h
      | ok n =>
        refine ⟨a, n, rfl, ?_, ha⟩
        simp only [linkAmountOf, stroopsOf, ha, bind, Except.bind] at h
        split at h
        · cases h
        · cases h; rfl
    | _ => cases h

/-- The amount of a link is that of its request. -/
theorem checkLink_amount {sdk : Sdk} {input : LinkInput} {creator : String} {amount : Option String} {reference : Option JsString}
    (h : checkLink sdk input = .ok (creator, amount, reference)) : linkAmountOf input.amount = .ok amount := by
  unfold checkLink at h
  split at h
  · cases hx : isString "XLM" input.asset with
    | false => simp [hx] at h; cases h
    | true =>
      cases ha : linkAmountOf input.amount with
      | error e => simp [hx, ha] at h; cases h
      | ok a =>
        simp only [hx, ha] at h
        cases hr : referenceOf input.reference with
        | none => simp [hr] at h; cases h
        | some r =>
          simp only [hr] at h
          obtain ⟨-, rfl, -⟩ : _ ∧ a = amount ∧ r = reference := by simpa using h
          rfl
  · cases h

section

variable {d : Deployment} {cfg : PaymentConfig}

/-- A link read back from a reachable store has the amount it was saved with, as the store returns it. -/
theorem returned_amount (run : Reachable d cfg) {tid tid' : Nat} {input : LinkInput} {link link' : PaymentLink}
    (created : cfg.calls[tid]? = some (.createLink input, .ret (.link link)))
    (opened : cfg.calls[tid']? = some (.getLink link.id, .ret (.link link'))) :
    linkAmountOf input.amount = .ok link.amount ∧ link'.amount = storedAmount d link.amount := by
  have holds := payments_holds run
  obtain ⟨s, later, made, stored⟩ := returned holds created
  obtain ⟨s', later', found⟩ := returned holds opened
  have first := later.links _ _ stored.kept
  have second := later'.links _ _ found
  obtain rfl : storedLink d link = link' := Option.some.inj (first.symm.trans second)
  exact ⟨checkLink_amount made.checked, rfl⟩

/-- **When links stay payable**: without a database, or without an amount. -/
theorem link_payable_iff (run : Reachable d cfg) {tid tid' : Nat} {input : LinkInput} {link link' : PaymentLink}
    (created : cfg.calls[tid]? = some (.createLink input, .ret (.link link)))
    (opened : cfg.calls[tid']? = some (.getLink link.id, .ret (.link link'))) :
    Payable input.amount link'.amount ↔ d.pool = false ∨ input.amount = none := by
  obtain ⟨accepted, amount⟩ := returned_amount run created opened
  rw [amount, storedAmount]
  rcases linkAmountOf_ok accepted with ⟨absent, same⟩ | ⟨a, n, given, same, value⟩
  · simp [absent, same, Payable]
  · rw [given, same]
    cases d.pool with
    | false =>
      simp only [Bool.false_eq_true, if_false, true_or, iff_true]
      exact ⟨a, a, rfl, rfl, .self value⟩
    | true =>
      simp only [if_true, Option.map_some, reduceCtorEq, or_self, iff_false]
      rintro ⟨a', text, -, returned, reads⟩
      rw [← Option.some.inj returned] at reads
      exact not_reads_fixedPoint _ _ reads

/-- The request, the link created from it and the link read back, if call `tid`
has created one and call `tid'` has read it. -/
def readBack (cfg : PaymentConfig) (tid tid' : Nat) : Option (LinkInput × PaymentLink × PaymentLink) :=
  match cfg.calls[tid]?, cfg.calls[tid']? with
  | some (.createLink input, .ret (.link link)), some (.getLink id, .ret (.link link')) =>
    if id = link.id then some (input, link, link') else none
  | _, _ => none

theorem readBack_eq {tid tid' : Nat} {input : LinkInput} {link link' : PaymentLink}
    (h : readBack cfg tid tid' = some (input, link, link')) :
    cfg.calls[tid]? = some (.createLink input, .ret (.link link)) ∧
      cfg.calls[tid']? = some (.getLink link.id, .ret (.link link')) := by
  unfold readBack at h
  split at h
  · rename_i created opened
    split at h
    · rename_i same
      cases h
      exact ⟨created, same ▸ opened⟩
    · cases h
  · cases h

/-- With a database a link over 5 XLM is created, and read back with the amount `5.000000000000`. -/
theorem linked_unpayable : ∃ cfg input link link', Reachable (Sample.deployment true) cfg ∧
    cfg.calls[0]? = some (.createLink input, .ret (.link link)) ∧
    cfg.calls[1]? = some (.getLink link.id, .ret (.link link')) ∧
    input.amount = some (.str "5") ∧ link'.amount = some "5.000000000000" ∧ ¬ Payable input.amount link'.amount := by
  have ran : (Sample.run true Sample.linked).any (fun cfg => (readBack cfg 0 1).any fun (input, _, link') =>
      isString "5" input.amount ∧ link'.amount = some "5.000000000000") = true := by
    decide +kernel
  obtain ⟨cfg, ran, read⟩ := (Option.any_eq_true _ _).1 ran
  obtain ⟨⟨input, link, link'⟩, read, amounts⟩ := (Option.any_eq_true _ _).1 read
  obtain ⟨asked, returned⟩ := of_decide_eq_true amounts
  obtain ⟨created, opened⟩ := readBack_eq read
  have asked := isString_iff.1 asked
  refine ⟨cfg, input, link, link', reachable_of_run ran, created, opened, asked, returned, ?_⟩
  rw [asked, returned]
  rintro ⟨amount, text, -, same, reads⟩
  have form := reads.form
  rw [← Option.some.inj same] at form
  exact absurd form (by decide)

theorem link_payable_iff_linked : ∃ cfg input link link', Reachable (Sample.deployment false) cfg ∧
    cfg.calls[0]? = some (.createLink input, .ret (.link link)) ∧
    cfg.calls[1]? = some (.getLink link.id, .ret (.link link')) ∧
    (Payable input.amount link'.amount ↔ (Sample.deployment false).pool = false ∨ input.amount = none) := by
  have ran : (Sample.run false Sample.linked).any (fun cfg => (readBack cfg 0 1).isSome) = true := by decide +kernel
  obtain ⟨cfg, ran, read⟩ := (Option.any_eq_true _ _).1 ran
  obtain ⟨⟨input, link, link'⟩, read⟩ := Option.isSome_iff_exists.1 read
  obtain ⟨created, opened⟩ := readBack_eq read
  have run := reachable_of_run ran
  exact ⟨cfg, input, link, link', run, created, opened, link_payable_iff run created opened⟩

end

end AfriPay.Payments
