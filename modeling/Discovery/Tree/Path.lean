/-!
# Paths of nodes

A node path starts with a slash, and a slash stands between two segments.  The ancestors of a
path are what stands before its later slashes, so they are found by reading it from its end.

* `ancestors_eq`: the ancestors are the parent and the parent's ancestors.
-/

namespace Discovery.Tree.Path

def doubled : List Char → Bool
  | [] => false
  | [_] => false
  | a :: b :: r => (a == '/' && b == '/') || doubled (b :: r)

/-- Whether a text names a node: a leading slash, something after it, and no empty segment. -/
def isNode (p : String) : Bool :=
  let cs := p.toList
  cs.head? == some '/' && cs != ['/'] && cs.getLast? != some '/' && !doubled cs

/-- What stands before each slash of a text that is given from its end, a slash in front of the
whole text apart. -/
def cuts : List Char → List (List Char)
  | [] => []
  | c :: r => if c = '/' ∧ r ≠ [] then r.reverse :: cuts r else cuts r

/-- The ancestors of a path from its parent upward, without the root. -/
def ancestors (p : String) : List String :=
  (cuts p.toList.reverse).map String.ofList

/-- The path of the parent, where that is not the root. -/
def parent? (p : String) : Option String :=
  (ancestors p).head?

/-- The prefix that the paths below `p` share. -/
def below (p : String) : String :=
  p ++ "/"

def startsWith (p start : String) : Bool :=
  start.toList.isPrefixOf p.toList

def after? (p start : String) : Option String :=
  if startsWith p start then some (String.ofList (p.toList.drop start.toList.length)) else none

theorem cuts_cons (c : Char) (r : List Char) :
    cuts (c :: r) = if c = '/' ∧ r ≠ [] then r.reverse :: cuts r else cuts r := rfl

theorem cuts_eq (r : List Char) :
    cuts r = match (cuts r).head? with
      | none => []
      | some q => q :: cuts q.reverse := by
  induction r with
  | nil => rfl
  | cons c r ih =>
    rw [cuts_cons]
    split
    · simp
    · exact ih

theorem ancestors_eq (p : String) :
    ancestors p = match parent? p with
      | none => []
      | some q => q :: ancestors q := by
  have h := cuts_eq p.toList.reverse
  unfold parent? ancestors
  cases hc : (cuts p.toList.reverse).head? with
  | none =>
    rw [hc] at h
    simp [h]
  | some q =>
    rw [hc] at h
    simp only at h
    rw [h]
    simp

end Discovery.Tree.Path
