import ContractCheck.Text.Basic

/-! # Segments of a path

The lexical part of resolving a path: empty segments and `.` vanish, and `..` takes the segment
before it away.  At the root of a rooted path `..` has nothing to take and vanishes; in a relative
path it stays in front.
-/
namespace ContractCheck.Path

/-- The segment that means the directory itself. -/
def here : Text := ['.']

/-- The segment that means the directory above. -/
def up : Text := ['.', '.']

/-- What a segment does to the segments before it, the last one first. -/
def pushSegment (rooted : Bool) (before : List Text) (s : Text) : List Text :=
  if s = [] ∨ s = here then before
  else if s = up then
    match before with
    | [] => if rooted then [] else [up]
    | t :: r => if t = up then up :: t :: r else r
  else s :: before

/-- The segments that are left when `.` and `..` are resolved. -/
def collapse (rooted : Bool) (segments : List Text) : List Text :=
  (segments.foldl (pushSegment rooted) []).reverse

end ContractCheck.Path
