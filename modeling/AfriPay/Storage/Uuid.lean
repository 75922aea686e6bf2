import Mathlib.Algebra.BigOperators.Fin
import AfriPay.Text.Js

/-!
# UUIDs

The identifiers `randomUUID` draws, as texts. There are enough of them: a list
of fewer than 16³² leaves one out, which `freshUuid` finds.
-/

namespace AfriPay.Storage
open Text

/-- Where a UUID has its dashes. -/
def uuidPlaces : List Char := "xxxxxxxx-xxxx-xxxx-xxxx-xxxxxxxxxxxx".toList

/-- `[0-9a-f]` -/
def isHexDigit (c : Char) : Bool := c.isDigit || (decide ('a' ≤ c) && decide (c ≤ 'f'))

/-- The character fits the place. -/
def fitsPlace (c place : Char) : Bool := if place = '-' then c = '-' else isHexDigit c

/-- A UUID as `randomUUID` writes it and a `UUID` column shows it. -/
def isUuid (s : String) : Bool := decide (s.toList.length = uuidPlaces.length) && (s.toList.zip uuidPlaces).all fun (c, place) => fitsPlace c place

/-- The places filled with digits, one after the other. -/
def fillPlaces : List Char → List Char → List Char
  | '-' :: places, digits => '-' :: fillPlaces places digits
  | _ :: places, digit :: digits => digit :: fillPlaces places digits
  | _, _ => []

def uuidOf (n : Fin (16 ^ 32)) : String :=
  String.ofList (fillPlaces uuidPlaces (List.ofFn fun i : Fin 32 => Nat.digitChar (finFunctionFinEquiv.symm n i)))

/-- An identifier not among those issued, while there is one among the first. -/
def freshUuid (issued : List String) : String :=
  (((List.range (issued.length + 1)).map fun n => uuidOf (Fin.ofNat _ n)).find? (· ∉ issued)).getD ""

theorem isHexDigit_digitChar (n : Fin 16) : isHexDigit (Nat.digitChar n) = true := digitChar_isHex n

theorem isHexDigit_ne_dash {c : Char} (hex : isHexDigit c = true) : c ≠ '-' := by
  rintro rfl
  cases hex

/-- Digits in the number of the places stand there in their order. -/
theorem fillPlaces_spec (places digits : List Char) (hex : ∀ c ∈ digits, isHexDigit c = true)
    (fits : digits.length = (places.filter (· ≠ '-')).length) :
    (fillPlaces places digits).filter (· ≠ '-') = digits ∧ (fillPlaces places digits).length = places.length ∧
      ((fillPlaces places digits).zip places).all (fun (c, place) => fitsPlace c place) = true := by
  induction places generalizing digits with
  | nil =>
    rw [List.filter_nil, List.length_nil, List.length_eq_zero_iff] at fits
    subst fits
    exact ⟨rfl, rfl, rfl⟩
  | cons place places ih =>
    by_cases dash : place = '-'
    · subst dash
      obtain ⟨kept, length, all⟩ := ih digits hex fits
      refine ⟨kept, congrArg (· + 1) length, ?_⟩
      rw [fillPlaces, List.zip_cons_cons, List.all_cons, all]
      rfl
    · rw [List.filter_cons_of_pos (by simpa using dash), List.length_cons] at fits
      cases digits with
      | nil => cases fits
      | cons digit digits =>
        obtain ⟨kept, length, all⟩ := ih digits (fun c mem => hex c (List.mem_cons_of_mem _ mem)) (Nat.succ.inj fits)
        have first := hex digit List.mem_cons_self
        have filled : fillPlaces (place :: places) (digit :: digits) = digit :: fillPlaces places digits :=
          fillPlaces.eq_2 _ _ _ _ (fun same => dash same)
        rw [filled]
        refine ⟨?_, congrArg (· + 1) length, ?_⟩
        · rw [List.filter_cons_of_pos (by simpa using isHexDigit_ne_dash first), kept]
        · have fit : fitsPlace digit place = true := (if_neg dash).trans first
          rw [List.zip_cons_cons, List.all_cons, all, Bool.and_true]
          exact fit

theorem uuidOf_spec (n : Fin (16 ^ 32)) : isUuid (uuidOf n) = true ∧
    (uuidOf n).toList.filter (· ≠ '-') = List.ofFn fun i : Fin 32 => Nat.digitChar (finFunctionFinEquiv.symm n i) := by
  obtain ⟨kept, length, all⟩ := fillPlaces_spec uuidPlaces (List.ofFn fun i : Fin 32 => Nat.digitChar (finFunctionFinEquiv.symm n i))
    (by rw [List.forall_mem_ofFn_iff]; exact fun i => isHexDigit_digitChar _) (by rw [List.length_ofFn]; decide)
  rw [isUuid, uuidOf, String.toList_ofList, length, all]
  exact ⟨by simp, kept⟩

theorem uuidOf_injective : Function.Injective uuidOf := by
  intro m n same
  have digits := (uuidOf_spec m).2
  rw [same, (uuidOf_spec n).2] at digits
  refine finFunctionFinEquiv.symm.injective (funext fun i => ?_)
  exact (digitChar_inj _ _ (congrFun (List.ofFn_injective digits) i)).symm

/-- **A new identifier is left** while fewer than there are have been issued. -/
theorem freshUuid_spec {issued : List String} (few : issued.length < 16 ^ 32) :
    isUuid (freshUuid issued) = true ∧ freshUuid issued ∉ issued := by
  have found : ∃ n ∈ List.range (issued.length + 1), uuidOf (Fin.ofNat _ n) ∉ issued := by
    by_contra none
    push Not at none
    have all : (Finset.range (issued.length + 1)).image (fun n => uuidOf (Fin.ofNat _ n)) ⊆ issued.toFinset := by
      intro id mem
      obtain ⟨n, bound, rfl⟩ := Finset.mem_image.1 mem
      exact List.mem_toFinset.2 (none n (List.mem_range.2 (Finset.mem_range.1 bound)))
    have distinct : Set.InjOn (fun n => uuidOf (Fin.ofNat _ n)) (Finset.range (issued.length + 1) : Set Nat) := by
      intro m hm n hn same
      rw [Finset.coe_range, Set.mem_Iio] at hm hn
      have same := congrArg Fin.val (uuidOf_injective same)
      rwa [Fin.val_ofNat, Fin.val_ofNat, Nat.mod_eq_of_lt (by omega), Nat.mod_eq_of_lt (by omega)] at same
    have card := (Finset.card_le_card all).trans issued.toFinset_card_le
    rw [Finset.card_image_of_injOn distinct, Finset.card_range] at card
    omega
  obtain ⟨n, mem, free⟩ := found
  have some : (((List.range (issued.length + 1)).map fun n => uuidOf (Fin.ofNat _ n)).find? (· ∉ issued)).isSome = true := by
    rw [List.find?_isSome]
    exact ⟨_, List.mem_map_of_mem mem, by simpa using free⟩
  obtain ⟨id, first⟩ := Option.isSome_iff_exists.1 some
  rw [freshUuid, first, Option.getD_some]
  obtain ⟨m, -, rfl⟩ := List.mem_map.1 (List.mem_of_find?_eq_some first)
  exact ⟨(uuidOf_spec _).1, by simpa using List.find?_some first⟩

theorem ne_nul_of_isUuid {s : String} (uuid : isUuid s = true) : ∀ c ∈ s.toList, c ≠ '\x00' := by
  rw [isUuid, Bool.and_eq_true, decide_eq_true_eq, List.all_eq_true] at uuid
  obtain ⟨length, fits⟩ := uuid
  intro c mem
  obtain ⟨i, bound, rfl⟩ := List.mem_iff_getElem.1 mem
  have place : i < uuidPlaces.length := lt_of_lt_of_eq bound length
  have fit := fits (s.toList[i], uuidPlaces[i])
    (List.mem_iff_getElem.2 ⟨i, by rw [List.length_zip]; exact lt_min bound place, List.getElem_zip⟩)
  rintro same
  simp only [same, fitsPlace] at fit
  split at fit <;> cases fit

end AfriPay.Storage
