import Mathlib.Data.List.Basic

/-!
# Base64

`btoa` and `atob` as the HTML and Infra Standards define them: strings stand for
bytes, a character for each, and the decoder forgives white space and missing
padding.
-/

namespace AfriPay.Text

def base64Alphabet : List Char := "ABCDEFGHIJKLMNOPQRSTUVWXYZabcdefghijklmnopqrstuvwxyz0123456789+/".toList

def base64Char (n : Nat) : Char := base64Alphabet.getD n '='

def base64Value (c : Char) : Option Nat := base64Alphabet.idxOf? c

/-- Bytes, in groups of three, as groups of six bits. -/
def sextets : List Nat → List Nat
  | a :: b :: c :: rest => a / 4 :: (a % 4 * 16 + b / 16) :: (b % 16 * 4 + c / 64) :: c % 64 :: sextets rest
  | [a, b] => [a / 4, a % 4 * 16 + b / 16, b % 16 * 4]
  | [a] => [a / 4, a % 4 * 16]
  | [] => []

/-- Groups of six bits as bytes; bits that do not fill a byte are left out. -/
def octets : List Nat → List Nat
  | w :: x :: y :: z :: rest => (w * 4 + x / 16) :: (x % 16 * 16 + y / 4) :: (y % 4 * 64 + z) :: octets rest
  | [w, x, y] => [w * 4 + x / 16, x % 16 * 16 + y / 4]
  | [w, x] => [w * 4 + x / 16]
  | _ => []

/-- `btoa(s)`, which refuses a character that is no byte. -/
def btoa (s : String) : Option String :=
  let bytes := s.toList.map Char.toNat
  if bytes.all (· ≤ 0xFF) then
    some (String.ofList ((sextets bytes).map base64Char ++ List.replicate ((3 - bytes.length % 3) % 3) '='))
  else none

/-- TAB, LF, FF, CR and SPACE -/
def isAsciiSpace (c : Char) : Bool := decide (c.toNat ∈ [0x9, 0xA, 0xC, 0xD, 0x20])

/-- A text of whole groups without its padding. -/
def unpadded (cs : List Char) : List Char :=
  if cs.length % 4 ≠ 0 then cs
  else match cs.reverse with
    | '=' :: '=' :: rest | '=' :: rest => rest.reverse
    | _ => cs

/-- `atob(s)` -/
def atob (s : String) : Option String :=
  let cs := unpadded (s.toList.filter fun c => !isAsciiSpace c)
  if cs.length % 4 = 1 then none
  else (cs.mapM base64Value).map fun vs => String.ofList ((octets vs).map Char.ofNat)

theorem sextets_lt {bytes : List Nat} (h : ∀ b ∈ bytes, b < 256) : ∀ n ∈ sextets bytes, n < 64 := by
  fun_induction sextets bytes with
  | case1 a b c rest ih =>
    have ha := h a (by simp)
    have hb := h b (by simp)
    have hc := h c (by simp)
    intro n mem
    simp only [List.mem_cons] at mem
    rcases mem with rfl | rfl | rfl | rfl | mem
    · omega
    · omega
    · omega
    · omega
    · exact ih (fun b mem => h b (by simp [mem])) n mem
  | case2 a b =>
    have ha := h a (by simp)
    have hb := h b (by simp)
    simp only [List.forall_mem_cons, List.not_mem_nil, false_implies, implies_true, and_true]
    omega
  | case3 a =>
    have ha := h a (by simp)
    simp only [List.forall_mem_cons, List.not_mem_nil, false_implies, implies_true, and_true]
    omega
  | case4 => simp

theorem octets_sextets {bytes : List Nat} (h : ∀ b ∈ bytes, b < 256) : octets (sextets bytes) = bytes := by
  fun_induction sextets bytes with
  | case1 a b c rest ih =>
    have ha := h a (by simp)
    have hb := h b (by simp)
    have hc := h c (by simp)
    rw [octets, ih fun b mem => h b (by simp [mem])]
    congr 1
    · omega
    congr 1
    · omega
    congr 1
    omega
  | case2 a b =>
    have ha := h a (by simp)
    have hb := h b (by simp)
    rw [octets]
    congr 1
    · omega
    congr 1
    omega
  | case3 a =>
    have ha := h a (by simp)
    rw [octets]
    congr 1
    omega
  | case4 => rfl

/-- With its padding a text is made of groups of four. -/
theorem length_sextets (bytes : List Nat) : (sextets bytes).length + (3 - bytes.length % 3) % 3 = (bytes.length + 2) / 3 * 4 := by
  fun_induction sextets bytes with
  | case1 a b c rest ih =>
    simp only [List.length_cons]
    omega
  | case2 a b => simp
  | case3 a => simp
  | case4 => rfl

theorem base64Char_spec : ∀ n < 64, base64Value (base64Char n) = some n ∧ base64Char n ≠ '=' ∧ isAsciiSpace (base64Char n) = false := by
  decide

theorem mapM_base64Value {vs : List Nat} (h : ∀ n ∈ vs, n < 64) : (vs.map base64Char).mapM base64Value = some vs := by
  induction vs with
  | nil => rfl
  | cons v vs ih =>
    have first := (base64Char_spec v (h v List.mem_cons_self)).1
    rw [List.map_cons, List.mapM_cons, first, ih fun n mem => h n (List.mem_cons_of_mem _ mem)]
    rfl

/-- Nothing but the padding is taken away. -/
theorem unpadded_append {cs : List Char} {k : Nat} (clean : ∀ c ∈ cs, c ≠ '=') (few : k ≤ 2) (whole : (cs.length + k) % 4 = 0) :
    unpadded (cs ++ List.replicate k '=') = cs := by
  have length : (cs ++ List.replicate k '=').length % 4 = 0 := by rw [List.length_append, List.length_replicate, whole]
  have back : cs.reverse.head? ≠ some '=' := fun last => clean '=' (List.mem_reverse.1 (List.mem_of_mem_head? last)) rfl
  rw [unpadded, if_neg (not_not.2 length), List.reverse_append, List.reverse_replicate]
  obtain rfl | rfl | rfl : k = 0 ∨ k = 1 ∨ k = 2 := by omega
  · split
    case h_1 order => exact (back (congrArg List.head? order)).elim
    case h_2 order => exact (back (congrArg List.head? order)).elim
    case h_3 => exact List.append_nil _
  · split
    case h_1 order => exact (back (congrArg List.head? (List.cons.inj order).2)).elim
    case h_2 order => exact (congrArg List.reverse (List.cons.inj order).2.symm).trans (List.reverse_reverse cs)
    case h_3 other => exact (other _ rfl).elim
  · split
    case h_1 order => exact (congrArg List.reverse (List.cons.inj (List.cons.inj order).2).2.symm).trans (List.reverse_reverse cs)
    case h_2 twice order => exact (twice _ (List.cons.inj order).2.symm).elim
    case h_3 other => exact (other _ rfl).elim

/-- Groups of six bits and enough padding are read as these. -/
theorem atob_padded {vs : List Nat} {k : Nat} (values : ∀ n ∈ vs, n < 64) (few : k ≤ 2) (whole : (vs.length + k) % 4 = 0) :
    atob (String.ofList (vs.map base64Char ++ List.replicate k '=')) = some (String.ofList ((octets vs).map Char.ofNat)) := by
  have clean : ∀ c ∈ vs.map base64Char, c ≠ '=' ∧ isAsciiSpace c = false := fun c mem => by
    obtain ⟨n, of, rfl⟩ := List.mem_map.1 mem
    exact (base64Char_spec n (values n of)).2
  have dense : (vs.map base64Char ++ List.replicate k '=').filter (fun c => !isAsciiSpace c) = vs.map base64Char ++ List.replicate k '=' := by
    refine List.filter_eq_self.2 fun c mem => ?_
    rcases List.mem_append.1 mem with mem | mem
    · rw [(clean c mem).2]
      rfl
    · rw [List.eq_of_mem_replicate mem]
      rfl
  have stripped := unpadded_append (fun c mem => (clean c mem).1) few (by rw [List.length_map, whole])
  have length : ¬(vs.map base64Char).length % 4 = 1 := by
    rw [List.length_map]
    omega
  rw [atob, String.toList_ofList, dense, stripped, if_neg length, mapM_base64Value values, Option.map_some]

/-- What `btoa` wrote `atob` reads. -/
theorem atob_btoa {s t : String} (written : btoa s = some t) : atob t = some s := by
  rw [btoa] at written
  split at written
  case isFalse => cases written
  case isTrue bytes =>
    have small : ∀ b ∈ s.toList.map Char.toNat, b < 256 := fun b mem => by
      have := List.all_eq_true.1 bytes b mem
      simp only [decide_eq_true_eq] at this
      omega
    have groups := length_sextets (s.toList.map Char.toNat)
    have same : Char.ofNat ∘ Char.toNat = id := funext Char.ofNat_toNat
    obtain rfl := Option.some.inj written
    rw [atob_padded (sextets_lt small) (by omega) (by omega), octets_sextets small, List.map_map, same, List.map_id, String.ofList_toList]

end AfriPay.Text
