import LawyerAgent.Common
import LawyerAgent.PythonText
import LawyerAgent.Relational.Table
import Mathlib.Data.Int.ConditionallyCompleteOrder
import Mathlib.Data.List.Sort
import Mathlib.Data.Prod.Lex
import Mathlib.Order.ConditionallyCompleteLattice.Basic
import Mathlib.Order.WithBot

/-!
# Legal versions and the point-in-time lookup

A version is one published text of a statute. The lookup of a date takes the
version that came into effect last; status and end date are returned as they
are stored.
-/

set_option autoImplicit false

namespace LawyerAgent.LegalVersions
open Relational Common PythonText

/-- A day count from 1970-01-01. -/
abbrev Date : Type := ℤ

inductive LegalVersionStatus where
  | current
  | repealed
  | statusUnknown
  | historical
  | draft
deriving DecidableEq, Repr

structure LegalVersionFields where
  id : UUID7
  instrumentId : UUID7
  versionLabel : String
  status : LegalVersionStatus
  publishedOn : Option Date
  effectiveOn : Option Date
  repealedOn : Option Date
  lawNumber : Option String := none
  contentHash : Option Digest := none
  sourceRef : Option String := none
  datasetVersion : Option String := none
  parserVersion : Option String := none
deriving DecidableEq

/-- `_require_nonempty` -/
def nonempty (value : String) : Bool := !(strip value.toList).isEmpty

def legalVersionChecks : Checks LegalVersionFields := fun v =>
  [(nonempty v.versionLabel,"version label must be non-empty text"),
   (v.lawNumber.all nonempty,"law number must be non-empty text")]

abbrev LegalVersion : Type := Checked legalVersionChecks

/-- `create_version` writes the fields of a `LegalVersion` and `_to_version`
reads them back, so the rows are the versions themselves. -/
def legalVersions : Schema LegalVersion UUID7 where
  key v := v.value.id
  check _ := true
  clash v w := v.value.instrumentId = w.value.instrumentId &&
    v.value.versionLabel = w.value.versionLabel

def effectiveBy (asOf : Date) (v : LegalVersion) : Bool :=
  v.value.effectiveOn.any (· ≤ asOf)

/-- The database puts NULL below every date. -/
def effectiveKey (v : LegalVersion) : WithBot Date ×ₗ WithBot Date :=
  toLex (v.value.effectiveOn,v.value.publishedOn)

def laterEffective (v w : LegalVersion) : Prop := effectiveKey w ≤ effectiveKey v

instance : DecidableRel laterEffective := fun v w =>
  inferInstanceAs (Decidable (effectiveKey w ≤ effectiveKey v))

instance : Std.Total laterEffective := ⟨fun v w => le_total (effectiveKey w) (effectiveKey v)⟩

instance : IsTrans LegalVersion laterEffective := ⟨fun _ _ _ h₁ h₂ => le_trans h₂ h₁⟩

def effectiveVersions (t : Table legalVersions) (instrumentId : UUID7) (asOf : Date) :
    List LegalVersion :=
  selectRows (fun v => v.value.instrumentId = instrumentId && effectiveBy asOf v) t

def versionAt (t : Table legalVersions) (instrumentId : UUID7) (asOf : Date) :
    Option LegalVersion :=
  ((effectiveVersions t instrumentId asOf).insertionSort laterEffective).head?

theorem mem_effectiveVersions {t : Table legalVersions} {i : UUID7} {d : Date}
    {v : LegalVersion} : v ∈ effectiveVersions t i d ↔
      v ∈ t ∧ v.value.instrumentId = i ∧ ∃ e, v.value.effectiveOn = some e ∧ e ≤ d := by
  simp [effectiveVersions,mem_selectRows,effectiveBy,Option.any_eq_true]

/-- What a lookup returns: an effective version of the instrument, no other of
which came into effect or was published later. -/
structure Latest (t : Table legalVersions) (i : UUID7) (d : Date) (v : LegalVersion) : Prop where
  mem : v ∈ t
  instrument : v.value.instrumentId = i
  effective : ∃ e, v.value.effectiveOn = some e ∧ e ≤ d
  latest : ∀ w ∈ effectiveVersions t i d, effectiveKey w ≤ effectiveKey v

theorem versionAt_latest {t : Table legalVersions} {i : UUID7} {d : Date} {v : LegalVersion}
    (h : versionAt t i d = some v) : Latest t i d v := by
  have hsorted := List.pairwise_insertionSort laterEffective (effectiveVersions t i d)
  have hperm := List.perm_insertionSort laterEffective (effectiveVersions t i d)
  obtain ⟨rest,hrest⟩ := List.head?_eq_some_iff.mp h
  rw [hrest] at hsorted hperm
  have hv := mem_effectiveVersions.mp (hperm.mem_iff.mp List.mem_cons_self)
  refine ⟨hv.1,hv.2.1,hv.2.2,?_⟩
  intro w hw
  rcases List.mem_cons.mp (hperm.mem_iff.mpr hw) with rfl | hlater
  · exact le_refl _
  · exact (List.pairwise_cons.mp hsorted).1 w hlater

theorem versionAt_some {t : Table legalVersions} {i : UUID7} {d : Date} {w : LegalVersion}
    (h : w ∈ effectiveVersions t i d) : ∃ v, versionAt t i d = some v := by
  apply Option.isSome_iff_exists.mp
  rw [versionAt,List.isSome_head?]
  intro hnil
  have hperm := List.perm_insertionSort laterEffective (effectiveVersions t i d)
  rw [hnil] at hperm
  exact List.not_mem_nil (hperm.mem_iff.mpr h)

end LawyerAgent.LegalVersions
