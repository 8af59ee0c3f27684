/-!
# File paths

Slash-separated paths, taken by their text alone.

* `Path.ofText`: a path as its components, without `.` and with `..` resolved where that is possible.
* `Path.text`: the written form of a path.
* `Path.relative?`: one path as seen from another.
* `Path.baseName`: the last component of a path's text.
-/

namespace NilFlow

/-- A path in its simplest form: whether it starts at the root, and its components. -/
structure Path where
  rooted : Bool
  parts : List String
deriving DecidableEq, Repr, Inhabited

namespace Path

/-- The components of a text, cut at every slash. -/
def components (s : String) : List String := (s.toList.splitOn '/').map String.ofList

/-- Resolves one component after the components so far, which are held last first. -/
def push (rooted : Bool) (done : List String) (part : String) : List String :=
  if part.isEmpty || part = "." then done
  else if part = ".." then
    match done with
    | [] => if rooted then [] else [".."]
    | d :: rest => if d = ".." then ".." :: done else rest
  else part :: done

/-- The path a text names, in its simplest form. -/
def ofText (s : String) : Path :=
  let rooted := s.toList.head? = some '/'
  ⟨rooted, ((components s).foldl (push rooted) []).reverse⟩

/-- The written form of a path; the empty relative path is a dot. -/
def text (p : Path) : String :=
  let body := "/".intercalate p.parts
  if p.rooted then "/" ++ body else if p.parts.isEmpty then "." else body

/-- What remains of two lists after their common beginning. -/
def afterCommon : List String → List String → List String × List String
  | a :: as, b :: bs => if a = b then afterCommon as bs else (a :: as, b :: bs)
  | as, bs => (as, bs)

/-- The path `target` as seen from `base`: up to where they part, then down. There is none when only one of them starts
at the root, or when the way to what remains of the target would pass an unresolved `..`. -/
def relative? (base target : Path) : Option String :=
  if base = target then some "."
  else if base.rooted ≠ target.rooted then none
  else
    let goal := if target.parts.isEmpty && !target.rooted then ["."] else target.parts
    match afterCommon base.parts goal with
    | (".." :: _, _ :: _) => none
    | (up, down) => some ("/".intercalate (up.map (fun _ => "..") ++ down))

/-- The last component of a path's text: a dot for the empty text, a slash for the root. -/
def baseName (s : String) : String :=
  if s.isEmpty then "."
  else match ((components s).filter (!·.isEmpty)).getLast? with
    | some last => last
    | none => "/"

end Path

end NilFlow
