import ContractCheck.Document

/-! # Open documents

The store holds the newest snapshot of every open document, by uri, in the order in which the
documents were first put.  What the operations do is said through `get?`: a document that was put is
found (`get?_put_self`), one that was removed is not (`get?_remove_self`), and no other one is
touched.
-/
namespace ContractCheck

/-- The newest snapshot of each open document. -/
structure DocumentStore where
  documents : List Document := []

namespace DocumentStore

/-- The snapshots in store order. -/
def toList (s : DocumentStore) : List Document := s.documents

/-- The number of open documents. -/
def size (s : DocumentStore) : Nat := s.documents.length

/-- The snapshot of a document. -/
def get? (s : DocumentStore) (uri : Text) : Option Document :=
  s.documents.find? fun d => d.uri = uri

/-- Whether a document is open. -/
def has (s : DocumentStore) (uri : Text) : Bool := (s.get? uri).isSome

/-- The store with a snapshot in the place of the older one. -/
def put (s : DocumentStore) (d : Document) : DocumentStore :=
  if s.has d.uri then { documents := s.documents.map fun e => if e.uri = d.uri then d else e }
  else { documents := s.documents ++ [d] }

/-- The store without a document. -/
def remove (s : DocumentStore) (uri : Text) : DocumentStore :=
  { documents := s.documents.filter fun d => d.uri ≠ uri }

theorem get?_uri {s : DocumentStore} {uri : Text} {d : Document} (h : s.get? uri = some d) :
    d.uri = uri := by
  simpa using List.find?_some h

private theorem find_map_same (d : Document) (ds : List Document) :
    ((ds.map fun e => if e.uri = d.uri then d else e).find? fun e => e.uri = d.uri)
      = if (ds.find? fun e => e.uri = d.uri).isSome then some d else none := by
  induction ds with
  | nil => rfl
  | cons e es ih => by_cases h : e.uri = d.uri <;> simp_all

private theorem find_map_other (d : Document) (uri : Text) (ne : uri ≠ d.uri) (ds : List Document) :
    ((ds.map fun e => if e.uri = d.uri then d else e).find? fun e => e.uri = uri)
      = ds.find? fun e => e.uri = uri := by
  induction ds with
  | nil => rfl
  | cons e es ih =>
    by_cases h : e.uri = d.uri
    · have : ¬ d.uri = uri := fun same => ne same.symm
      simp [h, this, ih]
    · simp only [List.map_cons, if_neg h, List.find?_cons, ih]

@[simp] theorem get?_put_self (s : DocumentStore) (d : Document) :
    (s.put d).get? d.uri = some d := by
  unfold put
  split
  · next h => simp only [get?]; rw [find_map_same]; exact if_pos h
  · next h =>
    have : (s.documents.find? fun e => e.uri = d.uri) = none := by simpa [has, get?] using h
    simp [get?, this]

theorem get?_put_other (s : DocumentStore) (d : Document) {uri : Text} (ne : uri ≠ d.uri) :
    (s.put d).get? uri = s.get? uri := by
  unfold put
  split
  · simp only [get?]; exact find_map_other d uri ne s.documents
  · have : ¬ d.uri = uri := fun same => ne same.symm
    simp [get?, this]

@[simp] theorem get?_remove_self (s : DocumentStore) (uri : Text) :
    (s.remove uri).get? uri = none := by
  simp [get?, remove]

theorem get?_remove_other (s : DocumentStore) {uri gone : Text} (ne : uri ≠ gone) :
    (s.remove gone).get? uri = s.get? uri := by
  unfold get? remove
  induction s.documents with
  | nil => rfl
  | cons e es ih =>
    by_cases h : e.uri = gone
    · have : ¬ e.uri = uri := fun same => ne (same.symm.trans h)
      simp_all
    · by_cases same : e.uri = uri <;> simp_all

theorem has_of_get? {s : DocumentStore} {uri : Text} {d : Document} (h : s.get? uri = some d) :
    s.has uri = true := by
  rw [has, h]
  rfl

@[simp] theorem has_put_self (s : DocumentStore) (d : Document) : (s.put d).has d.uri = true :=
  has_of_get? (get?_put_self s d)

theorem has_put {s : DocumentStore} {uri : Text} (h : s.has uri = true) (d : Document) :
    (s.put d).has uri = true := by
  by_cases same : uri = d.uri
  · rw [same]
    exact has_put_self s d
  · rw [has, get?_put_other s d same]
    exact h

theorem has_remove_other {s : DocumentStore} {uri gone : Text} (ne : uri ≠ gone) :
    (s.remove gone).has uri = s.has uri := by
  rw [has, get?_remove_other s ne, has]

/-! ## No document is there twice -/

/-- Whether every snapshot in the store is the one that is found. -/
def Distinct (s : DocumentStore) : Prop := ∀ d ∈ s.toList, s.get? d.uri = some d

theorem Distinct.empty : Distinct {} := nofun

theorem mem_put {s : DocumentStore} {d e : Document} (mem : e ∈ (s.put d).toList) :
    e = d ∨ e ∈ s.toList ∧ e.uri ≠ d.uri := by
  unfold put at mem
  split at mem
  · obtain ⟨old, there, rfl⟩ := List.mem_map.mp mem
    by_cases same : old.uri = d.uri
    · exact .inl (if_pos same)
    · rw [if_neg same]
      exact .inr ⟨there, same⟩
  · next new =>
    rcases List.mem_append.mp mem with there | there
    · refine .inr ⟨there, fun same => new ?_⟩
      exact List.find?_isSome.mpr ⟨e, there, by simpa using same⟩
    · exact .inl (List.mem_singleton.mp there)

theorem Distinct.put {s : DocumentStore} (h : s.Distinct) (d : Document) : (s.put d).Distinct := by
  intro e mem
  rcases mem_put mem with rfl | ⟨there, other⟩
  · exact get?_put_self s e
  · rw [get?_put_other s d other]
    exact h e there

theorem Distinct.remove {s : DocumentStore} (h : s.Distinct) (uri : Text) :
    (s.remove uri).Distinct := by
  intro e mem
  obtain ⟨there, other⟩ := List.mem_filter.mp mem
  rw [get?_remove_other s (by simpa using other)]
  exact h e there

end DocumentStore
end ContractCheck
