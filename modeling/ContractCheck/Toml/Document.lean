import ContractCheck.Value.Basic

/-! # TOML documents under construction

While a document is read, every table remembers how it came to be: implied by a longer header,
opened by a header of its own, or made by a dotted key.  That decides what may still be added to it:
a header opens a table once, a dotted key extends only tables of its own part of the document, and
inline values are closed for good.
-/
namespace ContractCheck.Toml

/-- Why a document has no value. -/
inductive Flaw where
  /-- The text breaks a rule of the format. -/
  | malformed
  /-- An integer has more than 4300 digits. -/
  | tooManyDigits
  /-- The bytes are not UTF-8. -/
  | notText
deriving DecidableEq, Repr

/-- How a table came to be; parts of a document are counted by their headers. -/
inductive Origin where
  | implied
  | header
  | dotted (part : Nat)
deriving DecidableEq

/-- Whether dotted keys in the given part may no longer extend the table. -/
def Origin.closed (part : Nat) : Origin → Bool
  | .implied => false
  | .header => true
  | .dotted p => p != part

/-- What stands behind a key of a document under construction. -/
inductive Node where
  | value (v : Value)
  | table (origin : Origin) (children : List (Text × Node))
  | tables (earlier : List Value) (last : List (Text × Node))

/-- The entries of a table under construction, in the order of their keys. -/
abbrev Children := List (Text × Node)

/-- Puts a node behind a key, in its place if the key is known. -/
def Children.put (key : Text) (n : Node) : Children → Children
  | [] => [(key, n)]
  | (k, m) :: r => if k = key then (k, n) :: r else (k, m) :: Children.put key n r

mutual
/-- The finished value of a node. -/
def Node.toValue : Node → Value
  | .value v => v
  | .table _ cs => .table (childFields cs)
  | .tables earlier last => .list (earlier ++ [.table (childFields last)])

/-- The finished fields of a table. -/
def childFields : List (Text × Node) → Fields
  | [] => []
  | (k, n) :: r => (k, n.toValue) :: childFields r
end

/-- Changes the table at the end of a path, making the tables that are missing and going into the
last table of an array. -/
def changeAt (f : Children → Except Flaw Children) : List Text → Children → Except Flaw Children
  | [], cs => f cs
  | k :: ks, cs =>
    match cs.lookup k with
    | none => do
      let inner ← changeAt f ks []
      pure (Children.put k (.table .implied inner) cs)
    | some (.table o inner) => do
      let inner ← changeAt f ks inner
      pure (Children.put k (.table o inner) cs)
    | some (.tables earlier last) => do
      let last ← changeAt f ks last
      pure (Children.put k (.tables earlier last) cs)
    | some (.value _) => throw .malformed

/-- Opens the table of a header. -/
def openTable (key : Text) (cs : Children) : Except Flaw Children :=
  match cs.lookup key with
  | none => pure (Children.put key (.table .header []) cs)
  | some (.table .implied inner) => pure (Children.put key (.table .header inner) cs)
  | some _ => throw .malformed

/-- Opens the next table of an array header. -/
def openTables (key : Text) (cs : Children) : Except Flaw Children :=
  match cs.lookup key with
  | none => pure (Children.put key (.tables [] []) cs)
  | some (.tables earlier last) =>
    pure (Children.put key (.tables (earlier ++ [.table (childFields last)]) []) cs)
  | some _ => throw .malformed

/-- Writes a value behind a dotted key. -/
def insertDotted (part : Nat) (v : Value) : List Text → Children → Except Flaw Children
  | [], _ => throw .malformed
  | [k], cs =>
    match cs.lookup k with
    | none => pure (Children.put k (.value v) cs)
    | some _ => throw .malformed
  | k :: k' :: ks, cs =>
    match cs.lookup k with
    | none => do
      let inner ← insertDotted part v (k' :: ks) []
      pure (Children.put k (.table (.dotted part) inner) cs)
    | some (.table o inner) =>
      if o.closed part then throw .malformed
      else do
        let inner ← insertDotted part v (k' :: ks) inner
        pure (Children.put k (.table (.dotted part) inner) cs)
    | some _ => throw .malformed

/-- A document while it is read: what it holds, the header in force, and its number. -/
structure Draft where
  root : Children := []
  header : List Text := []
  part : Nat := 0

/-- The draft after a table header. -/
def Draft.openTable (d : Draft) (path : List Text) : Except Flaw Draft :=
  match path.reverse with
  | [] => throw .malformed
  | key :: up => do
    let root ← changeAt (Toml.openTable key) up.reverse d.root
    pure { root, header := path, part := d.part + 1 }

/-- The draft after an array header. -/
def Draft.openTables (d : Draft) (path : List Text) : Except Flaw Draft :=
  match path.reverse with
  | [] => throw .malformed
  | key :: up => do
    let root ← changeAt (Toml.openTables key) up.reverse d.root
    pure { root, header := path, part := d.part + 1 }

/-- The draft after a key with its value. -/
def Draft.insert (d : Draft) (path : List Text) (v : Value) : Except Flaw Draft := do
  let root ← changeAt (insertDotted d.part v path) d.header d.root
  pure { d with root }

end ContractCheck.Toml
