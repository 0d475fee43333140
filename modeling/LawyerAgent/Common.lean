import Mathlib.Data.BitVec

/-!
# Identifiers, clock values and documents

Identifiers pass `require_uuid7` at every domain and persistence boundary, so
the model's identifiers are the UUIDv7 values: 48 timestamp bits and 74 random
bits around the version and the variant.
-/

set_option autoImplicit false

namespace LawyerAgent.Common

structure UUID7 where
  timestamp : BitVec 48
  randomA : BitVec 12
  randomB : BitVec 62
deriving DecidableEq

instance lawfulText : LawfulBEq (List Char) := inferInstance

instance lawfulOptional : LawfulBEq (Option UUID7) := inferInstance

def UUID7.int (u : UUID7) : BitVec 128 :=
  u.timestamp.setWidth 128 <<< 80 ||| 0x7 <<< 76 ||| u.randomA.setWidth 128 <<< 64 |||
    0b10 <<< 62 ||| u.randomB.setWidth 128

/-- The version is read at bit 76, the RFC 4122 variant is `10` at bit 62. -/
def isUUID7 (value : BitVec 128) : Bool :=
  value.extractLsb' 76 4 == 7 && value.extractLsb' 62 2 == 2 && value != 0

theorem int_version (u : UUID7) : u.int.extractLsb' 76 4 = 7 := by
  apply BitVec.eq_of_getLsbD_eq
  intro i hi
  have h : i = 0 ∨ i = 1 ∨ i = 2 ∨ i = 3 := by omega
  rcases h with rfl | rfl | rfl | rfl <;> simp [UUID7.int]

theorem int_variant (u : UUID7) : u.int.extractLsb' 62 2 = 2 := by
  apply BitVec.eq_of_getLsbD_eq
  intro i hi
  have h : i = 0 ∨ i = 1 := by omega
  rcases h with rfl | rfl <;> simp [UUID7.int]

theorem int_isUUID7 (u : UUID7) : isUUID7 u.int = true := by
  have hne : u.int ≠ 0 := by
    intro h
    have hv := int_version u
    rw [h] at hv
    exact absurd hv (by decide)
  unfold isUUID7
  rw [int_version,int_variant]
  simpa using hne

/-- Microseconds since the epoch; every stored timestamp is UTC-aware. -/
abbrev Time : Type := ℤ

def seconds (n : ℤ) : Time := n*1000000

def hours (n : ℤ) : Time := seconds (n*3600)

abbrev Digest : Type := BitVec 256

/-- The range of a signed `INTEGER` column. -/
def integerMax : ℕ := 2147483647

variable {α : Type} {checks : List (Bool × String)}

theorem each_of_all {p : α → Prop} [DecidablePred p] {items : List α}
    (h : (items.all fun a => decide (p a)) = true) : ∀ a ∈ items, p a :=
  fun a ha => of_decide_eq_true (List.all_eq_true.mp h a ha)

/-- A constructor's checks in source order, each with the text it raises. -/
abbrev Checks (α : Type) : Type := α → List (Bool × String)

def firstError (checks : List (Bool × String)) : Option String :=
  (checks.find? fun c => !c.1).map Prod.snd

theorem firstError_none (h : firstError checks = none) {c : Bool × String} (hc : c ∈ checks) :
    c.1 = true := by
  have hf : checks.find? (fun c => !c.1) = none := by
    simpa [firstError] using h
  simpa using List.find?_eq_none.mp hf c hc

theorem firstError_all (h : ∀ c ∈ checks, c.1 = true) :
    firstError checks = none := by
  have hf : checks.find? (fun c => !c.1) = none :=
    List.find?_eq_none.mpr fun c hc => by simp [h c hc]
  simp [firstError,hf]

theorem firstError_some {message : String} (h : firstError checks = some message) :
    (false,message) ∈ checks := by
  obtain ⟨c,hc,rfl⟩ := Option.map_eq_some_iff.mp h
  have hm := List.mem_of_find?_eq_some hc
  have hp := List.find?_some hc
  obtain ⟨ok,text⟩ := c
  cases ok with
  | false => exact hm
  | true => simp at hp

/-- A value that has passed its constructor's checks. -/
structure Checked {α : Type} (checks : Checks α) where
  value : α
  valid : firstError (checks value) = none

def postInit {α : Type} (checks : Checks α) (value : α) : Except String (Checked checks) :=
  match h : firstError (checks value) with
  | none => .ok ⟨value,h⟩
  | some message => .error message

theorem postInit_ok {checks : Checks α} {value : α} {c : Checked checks}
    (h : postInit checks value = .ok c) : c.value = value := by
  unfold postInit at h
  split at h
  · cases h
    rfl
  · cases h

theorem postInit_value {checks : Checks α} (c : Checked checks) :
    postInit checks c.value = .ok c := by
  obtain ⟨value,valid⟩ := c
  unfold postInit
  split
  · rfl
  · rename_i message hm
    rw [valid] at hm
    cases hm

theorem postInit_of {checks : Checks α} {value : α} (h : ∀ c ∈ checks value, c.1 = true) :
    postInit checks value = .ok ⟨value,firstError_all h⟩ :=
  postInit_value ⟨value,firstError_all h⟩

/-- A float is kept as the text it is written as. -/
inductive Json where
  | null
  | bool (value : Bool)
  | number (value : ℤ)
  | float (text : String)
  | string (value : String)
  | array (items : List Json)
  | object (fields : List (String × Json))

abbrev JsonObject : Type := List (String × Json)

end LawyerAgent.Common
