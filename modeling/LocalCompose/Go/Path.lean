/-
The Go library functions on strings and slash-separated paths that `compose.go` calls:
`strings.Split` and `strings.Join` on one separator character, `sort.Strings`, and the Unix
`filepath.IsAbs`, `filepath.Base`, `filepath.Clean` and `filepath.Join`. Clean follows the rules of
its documentation (one slash between elements, `.` dropped, an inner `..` removes the element
before it, a `..` at the root is dropped). The laws the label codec needs: splitting a join gives
the pieces back when none holds the separator, and `sort.Strings` returns the sorted permutation.
-/
import Mathlib.Data.List.Sort
import Mathlib.Data.String.Basic

namespace Compose

namespace Strings

/-- `strings.Split(s, string(sep))`: the pieces of `s` between the separators. -/
def split (s : String) (sep : Char) : List String := (s.toList.splitOn sep).map String.mk

/-- `strings.Join(elems, string(sep))`. -/
def join (elems : List String) (sep : Char) : String := String.mk ([sep].intercalate (elems.map String.toList))

/-- Splitting a join on a character that no piece holds gives the pieces back. -/
theorem split_join {elems : List String} {sep : Char} (hne : elems ≠ [])
    (hsep : ∀ e ∈ elems, sep ∉ e.toList) : split (join elems sep) sep = elems := by
  have hl : elems.map String.toList ≠ [] := by simpa using hne
  have hx : ∀ l ∈ elems.map String.toList, sep ∉ l := by simpa using hsep
  show ((List.splitOn sep ([sep].intercalate (elems.map String.toList))).map String.mk) = elems
  rw [List.splitOn_intercalate _ sep hx hl, List.map_map]
  exact List.map_id'' (fun e => rfl) elems

theorem length_split_pos (s : String) (sep : Char) : 0 < (split s sep).length := by
  have := List.splitOnP_ne_nil (· == sep) s.toList
  simpa [split, List.splitOn, List.length_pos] using this

end Strings

/-- `sort.Strings`: ascending byte order, which for the valid UTF-8 of a `String` is the order of
code points, that is `String`'s `≤`. Equal strings are equal values, so every sorting algorithm
returns the same list: insertion sort stands for Go's. -/
def sortStrings (keys : List String) : List String := keys.insertionSort fun a b => a.toList ≤ b.toList

theorem toList_le_iff (a b : String) : a.toList ≤ b.toList ↔ a ≤ b := String.le_iff_toList_le.symm

instance isTotal_toList_le : IsTotal String fun a b => a.toList ≤ b.toList :=
  ⟨fun a b => (le_total a b).imp (toList_le_iff a b).2 (toList_le_iff b a).2⟩

instance isTrans_toList_le : IsTrans String fun a b => a.toList ≤ b.toList :=
  ⟨fun a b c hab hbc => (toList_le_iff a c).2 (((toList_le_iff a b).1 hab).trans ((toList_le_iff b c).1 hbc))⟩

theorem sortStrings_perm (keys : List String) : (sortStrings keys).Perm keys := List.perm_insertionSort _ _

theorem sortStrings_sorted (keys : List String) : (sortStrings keys).Sorted (· ≤ ·) := by
  exact (List.sorted_insertionSort _ keys).imp fun h => (toList_le_iff _ _).1 h

/-- Sorted keys without repeats are strictly ascending. -/
theorem sortStrings_strict {keys : List String} (h : keys.Nodup) : (sortStrings keys).Sorted (· < ·) :=
  ((sortStrings_sorted keys).imp₂ (fun _ _ => lt_of_le_of_ne) ((sortStrings_perm keys).nodup_iff.2 h))

namespace Filepath

/-- `filepath.IsAbs` on Unix: the path starts with a slash. -/
def isAbs (path : String) : Bool := path.toList.head? == some '/'

/-- `filepath.Base`: the last element, trailing slashes removed; `"."` for the empty path and
`"/"` for a path of slashes only. -/
def base (path : String) : String :=
  if path = "" then "." else
    match ((path.toList.reverse.dropWhile (· == '/')).takeWhile (· != '/')).reverse with
    | [] => "/"
    | last => String.mk last

/-- One element of a rooted (`rooted`) or relative path, pushed on the reversed list of the kept
elements: `..` removes the element before it, stays at the start of a relative path, and is
dropped at the root. -/
def cleanStep (rooted : Bool) (acc : List String) (e : String) : List String :=
  if e = ".." then
    match acc with
    | d :: rest => if d = ".." then e :: acc else rest
    | [] => if rooted then [] else [e]
  else e :: acc

/-- `filepath.Clean` on Unix. -/
def clean (path : String) : String :=
  if path = "" then "." else
    let rooted := isAbs path
    let kept := ((Strings.split path '/').filter fun e => e ≠ "" ∧ e ≠ ".").foldl (cleanStep rooted) []
    let out := Strings.join kept.reverse '/'
    if rooted then "/" ++ out else if out = "" then "." else out

/-- `filepath.Join(elem1, elem2)`: the elements from the first non-empty one, joined by a slash
and cleaned; the empty string when both are empty. -/
def join (elem1 elem2 : String) : String :=
  if elem1 ≠ "" then clean (elem1 ++ "/" ++ elem2)
  else if elem2 ≠ "" then clean elem2 else ""

example : clean "/data/" = "/data" ∧ clean "a//b/./../c" = "a/c" ∧ clean "/../x" = "/x" := by decide

example : base "/srv/app/docker-compose.yml" = "docker-compose.yml" ∧ base "-" = "-" := by decide

end Filepath

end Compose
