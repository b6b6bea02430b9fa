import OpenTaker.StdStrings

/-!
# The parts of a path

`GetFileName` and `GetFilePath` find their cut on their own. Both look for the last backslash
first, and for the last slash only if there is no backslash at all.
-/

namespace OpenTaker.CStdString

/-- A slash or a backslash, which the source accepts on every system. -/
def isSeparator (char : Char) : Bool := char = '/' ∨ char = '\x5c'

/-- `_path.size() - 1` as an `int`: minus one for an empty path, and a negative number for one that
is too long. -/
def lastPos (path : Chars) : Int := if path = [] then -1 else toInt (path.length - 1)

/-- The loops that go back over separators, from before a position. -/
def backOver (path : Chars) : Nat → Option Int
  | 0 => some (-1)
  | pos + 1 => do
      let char ← getAt path pos
      if isSeparator char then backOver path pos else some pos

/-- The last position in front of the separators at the end. -/
def ending (path : Chars) : Option Int :=
  if 0 ≤ lastPos path then backOver path ((lastPos path).toNat + 1) else some (lastPos path)

/-- The loop that goes on over separators. It throws where the string ends. -/
def frontOver (path : Chars) : Nat → Nat → Option Nat
  | 0, _ => none
  | rounds + 1, prexPos => do
      let char ← getAt path (toInt prexPos)
      if isSeparator char then frontOver path rounds (prexPos + 1) else some prexPos

/-- The search for the last separator, `-1` if there is none. -/
def cutPos (path : Chars) : Int :=
  let pos := reverseFind path '\x5c'
  if pos ≠ -1 then pos else reverseFind path '/'

/-- `GetFileName`: what stands behind the last separator, or the whole path. -/
def getFileName (path : Chars) : Option Chars := do
  let ending ← ending path
  let pos := cutPos path
  if pos ≠ -1 then
    if pos ≤ ending then do
      let first ← checked (pos + 1)
      mid path first
    else some []
  else some []

/-- `GetFilePath`. A negative position is larger than `prexPos`, which is a `size_t`. -/
def getFilePath (path : Chars) : Option Chars := do
  let pos ← ending path
  if pos ≠ path.length - 1 then do
    let count ← checked (pos + 1)
    midCount path 0 (max 1 count)
  else do
    let prexPos ← frontOver path (path.length + 1) 0
    let pos := cutPos path
    if pos ≠ -1 then
      if pos < 0 ∨ prexPos < pos then midCount path 0 pos else some []
    else some []

variable {path dir name : Chars} {sep char : Char}

/-! ## The loops -/

/-- The position of the last character, in a path whose length fits in an int. -/
theorem lastPos_eq (nonempty : path ≠ []) (small : path.length < 2 ^ 31) : lastPos path = path.length - 1 := by
  have positive := List.length_pos_of_ne_nil nonempty
  rw [lastPos, if_neg nonempty, toInt_of_lt (by omega)]
  omega

/-- A path that does not end in a separator ends at its last position. -/
theorem ending_eq (nonempty : path ≠ []) (plain : isSeparator (path.getLast nonempty) = false)
    (small : path.length < 2 ^ 31) : ending path = some (path.length - 1 : Int) := by
  have positive := List.length_pos_of_ne_nil nonempty
  have last : getAt path ((path.length - 1 : Nat) : Int) = some (path.getLast nonempty) := by
    rw [getAt, if_pos (by omega), Int.toNat_natCast, List.getLast_eq_getElem, List.getElem?_eq_getElem]
  have isLast : lastPos path = ((path.length - 1 : Nat) : Int) := by
    rw [lastPos_eq nonempty small]
    omega
  rw [ending, isLast, if_pos (by omega), Int.toNat_natCast, backOver, last, Option.bind_eq_bind,
    Option.bind_some, plain]
  exact congrArg some (by omega)

/-- The separators at the beginning end before any other character. -/
theorem frontOver_le {rounds prexPos stop : Nat} (enough : stop < rounds + prexPos) (before : prexPos ≤ stop)
    (small : stop < 2 ^ 31) (found : path[stop]? = some char) (plain : isSeparator char = false) :
    ∃ front ≤ stop, frontOver path rounds prexPos = some front := by
  induction rounds generalizing prexPos with
  | zero => omega
  | succ rounds inductionHypothesis =>
    have within : stop < path.length := (List.getElem?_eq_some_iff.mp found).1
    have inside : prexPos < path.length := Nat.lt_of_le_of_lt before within
    have isChar : getAt path (toInt prexPos) = some path[prexPos] := by
      rw [toInt_of_lt (by omega), getAt, if_pos (by omega), Int.toNat_natCast, List.getElem?_eq_getElem]
    rw [frontOver, isChar, Option.bind_eq_bind, Option.bind_some]
    by_cases skipped : isSeparator path[prexPos]
    · have other : prexPos ≠ stop := by
        intro same
        subst same
        rw [(List.getElem?_eq_some_iff.mp found).2, plain] at skipped
        exact Bool.false_ne_true skipped
      rw [if_pos skipped]
      exact inductionHypothesis (by omega) (by omega)
    · rw [if_neg skipped]
      exact ⟨prexPos, before, rfl⟩

/-! ## The cut -/

/-- `ReverseFind` gives the last position of a character, in such a path. -/
theorem reverseFind_eq {found : Nat} (search : findLastOf char path = some found)
    (small : path.length < 2 ^ 31) : reverseFind path char = found := by
  have bound := findLastOf_lt search
  rw [reverseFind, search]
  exact toInt_of_lt (by omega)

/-- Where the path has no such character the search gives minus one, which the source compares with. -/
theorem reverseFind_of_notMem (absent : char ∉ path) : reverseFind path char = -1 := by
  rw [reverseFind, findLastOf_eq_none.mpr absent]

/-- A backslash wins over every slash, because the source looks for it first and asks for a slash
only where there is none. -/
theorem cutPos_of_mem {found : Nat} (search : findLastOf '\x5c' path = some found)
    (small : path.length < 2 ^ 31) : cutPos path = found := by
  rw [cutPos, reverseFind_eq search small]
  exact if_pos (by omega)

/-- The cut is at the last separator if that is a backslash or there is no backslash. -/
theorem cutPos_eq (isSep : isSeparator sep) (plain : ∀ char ∈ name, isSeparator char = false)
    (small : (dir ++ sep :: name).length < 2 ^ 31) (clean : sep = '\x5c' ∨ '\x5c' ∉ dir) :
    cutPos (dir ++ sep :: name) = dir.length := by
  have absent {separator : Char} (isSeparator : isSeparator separator) : separator ∉ name := fun mem =>
    Bool.false_ne_true ((plain separator mem).symm.trans isSeparator)
  by_cases backslash : sep = '\x5c'
  · subst backslash
    exact cutPos_of_mem (findLastOf_append dir (absent isSep)) small
  · have slash : sep = '/' := by
      simp only [isSeparator, decide_eq_true_eq] at isSep
      exact isSep.resolve_right backslash
    subst slash
    have none : '\x5c' ∉ dir ++ '/' :: name := by
      rw [List.mem_append, List.mem_cons, not_or, not_or]
      exact ⟨clean.resolve_left backslash, by decide, absent rfl⟩
    rw [cutPos, reverseFind_of_notMem none, if_neg (by decide)]
    exact reverseFind_eq (findLastOf_append dir (absent rfl)) small

/-! ## The parts -/

/-- The name is what stands behind the cut, wherever that is. -/
theorem getFileName_eq {cut : Nat} (nonempty : path ≠ []) (plain : isSeparator (path.getLast nonempty) = false)
    (small : path.length < 2 ^ 31) (isCut : cutPos path = cut) (inside : cut < path.length) :
    getFileName path = some (path.drop (cut + 1)) := by
  rw [getFileName, ending_eq nonempty plain small, Option.bind_eq_bind, Option.bind_some]
  dsimp only
  rw [isCut, if_pos (by omega), if_pos (by omega), checked_eq (by omega) (by omega), Option.bind_some]
  exact @mid_eq path (cut + 1) small (by omega)

/-- The directory is what stands in front of the cut, if that is behind the separators at the beginning. -/
theorem getFilePath_eq {cut front : Nat} (nonempty : path ≠ [])
    (plain : isSeparator (path.getLast nonempty) = false) (small : path.length < 2 ^ 31)
    (isCut : cutPos path = cut) (inside : cut < path.length)
    (isFront : frontOver path (path.length + 1) 0 = some front) (behind : front < cut) :
    getFilePath path = some (path.take cut) := by
  rw [getFilePath, ending_eq nonempty plain small, Option.bind_eq_bind, Option.bind_some, if_neg (by simp),
    isFront, Option.bind_eq_bind, Option.bind_some]
  dsimp only
  rw [isCut, if_pos (by omega), if_pos (Or.inr (by omega))]
  exact @midCount_eq path 0 cut small (by omega)

/-- An empty part is no longer than the path, whatever its length is as an int. -/
theorem length_of_empty {part : Chars} (isEmpty : some [] = some part) :
    (part.length : Int) ≤ max (toInt path.length) 0 := by
  obtain rfl := Option.some.inj isEmpty
  exact le_max_right _ _

/-- Neither part is longer than the size as an `int` says. -/
theorem length_getFileName {part : Chars} (cut : getFileName path = some part) :
    (part.length : Int) ≤ max (toInt path.length) 0 := by
  simp only [getFileName, Option.bind_eq_bind, Option.bind_eq_some_iff] at cut
  obtain ⟨last, -, cut⟩ := cut
  split at cut
  · split at cut
    · rw [Option.bind_eq_some_iff] at cut
      obtain ⟨first, -, cut⟩ := cut
      simp only [mid, Option.bind_eq_bind, Option.bind_eq_some_iff] at cut
      obtain ⟨count, -, cut⟩ := cut
      exact length_midCount cut
    · exact length_of_empty cut
  · exact length_of_empty cut

/-- The directory part is no longer than the path, so that a loop over the parents ends. -/
theorem length_getFilePath {part : Chars} (cut : getFilePath path = some part) :
    (part.length : Int) ≤ max (toInt path.length) 0 := by
  simp only [getFilePath, Option.bind_eq_bind, Option.bind_eq_some_iff] at cut
  obtain ⟨last, -, cut⟩ := cut
  split at cut
  · rw [Option.bind_eq_some_iff] at cut
    obtain ⟨count, -, cut⟩ := cut
    exact length_midCount cut
  · rw [Option.bind_eq_some_iff] at cut
    obtain ⟨front, -, cut⟩ := cut
    split at cut
    · split at cut
      · exact length_midCount cut
      · exact length_of_empty cut
    · exact length_of_empty cut

/-- The file stands behind a directory: the last separator of the path is between the two. -/
structure IsFile (dir : Chars) (sep : Char) (name : Chars) : Prop where
  dirNonempty : dir ≠ []
  dirEnds : isSeparator (dir.getLast dirNonempty) = false
  separates : isSeparator sep
  nameNonempty : name ≠ []
  namePlain : ∀ char ∈ name, isSeparator char = false

namespace IsFile

/-- The last character of a file's path is no separator, as its name has none. -/
theorem last (file : IsFile dir sep name) :
    isSeparator ((dir ++ sep :: name).getLast (by simp)) = false := by
  apply file.namePlain
  rw [List.getLast_append_of_ne_nil _ (List.cons_ne_nil _ _), List.getLast_cons file.nameNonempty]
  exact List.getLast_mem _

/-- The parts fit only into a path whose size fits. -/
theorem small_of_parts (file : IsFile dir sep name) (isPath : getFilePath (dir ++ sep :: name) = some dir)
    (isName : getFileName (dir ++ sep :: name) = some name) : (dir ++ sep :: name).length < 2 ^ 31 := by
  have positive := List.length_pos_of_ne_nil file.dirNonempty
  have dirBound := length_getFilePath isPath
  have nameBound := length_getFileName isName
  have sizeBound := toInt_lt (dir ++ sep :: name).length
  have total : (dir ++ sep :: name).length = dir.length + 1 + name.length := by
    simp only [List.length_append, List.length_cons]
    omega
  by_contra large
  have negative := toInt_neg (Nat.le_of_not_lt large) (by omega)
  omega

/-- `GetFilePath` gives what stands in front of the last separator, where that is a backslash or no
backslash is in front of it. -/
theorem getFilePath_eq (file : IsFile dir sep name) (clean : sep = '\x5c' ∨ '\x5c' ∉ dir)
    (small : (dir ++ sep :: name).length < 2 ^ 31) : getFilePath (dir ++ sep :: name) = some dir := by
  have isCut := cutPos_eq file.separates file.namePlain small clean
  have total : (dir ++ sep :: name).length = dir.length + (name.length + 1) := by simp
  have positive := List.length_pos_of_ne_nil file.dirNonempty
  have found : (dir ++ sep :: name)[dir.length - 1]? = some (dir.getLast file.dirNonempty) := by
    rw [List.getElem?_append_left (by omega), List.getLast_eq_getElem, List.getElem?_eq_getElem]
  obtain ⟨front, before, isFront⟩ := @frontOver_le _ _ ((dir ++ sep :: name).length + 1) 0 _
    (by omega) (by omega) (by omega) found file.dirEnds
  rw [CStdString.getFilePath_eq (by simp) file.last small isCut (by omega) isFront (by omega),
    List.take_left' rfl]

/-- The name is what stands behind the cut, when there is one. -/
theorem getFileName_eq (file : IsFile dir sep name) (clean : sep = '\x5c' ∨ '\x5c' ∉ dir)
    (small : (dir ++ sep :: name).length < 2 ^ 31) : getFileName (dir ++ sep :: name) = some name := by
  have isCut := cutPos_eq file.separates file.namePlain small clean
  rw [CStdString.getFileName_eq (by simp) file.last small isCut (by simp)]
  simp

end IsFile

/-- The two functions find the parts of a file just if the last separator is the one they look for
first. -/
theorem getFilePath_getFileName_iff (dir : Chars) (sep : Char) (name : Chars) (file : IsFile dir sep name) :
    (getFilePath (dir ++ sep :: name) = some dir ∧ getFileName (dir ++ sep :: name) = some name) ↔
      (sep = '\x5c' ∨ '\x5c' ∉ dir) ∧ (dir ++ sep :: name).length < 2 ^ 31 := by
  have nonempty : dir ++ sep :: name ≠ [] := by simp
  constructor
  · rintro ⟨isPath, isName⟩
    have small := file.small_of_parts isPath isName
    refine ⟨?_, small⟩
    by_contra mixed
    rw [not_or, not_not] at mixed
    -- The slash is not found, since a backslash stands somewhere before it.
    have notBehind : '\x5c' ∉ sep :: name := by
      rw [List.mem_cons, not_or]
      exact ⟨fun same => mixed.1 same.symm, fun mem => Bool.false_ne_true (file.namePlain _ mem).symm⟩
    obtain ⟨cut, search⟩ : ∃ cut, findLastOf '\x5c' dir = some cut := by
      refine Option.ne_none_iff_exists'.mp fun none => ?_
      exact findLastOf_eq_none.mp none mixed.2
    have bound := findLastOf_lt search
    have isCut := cutPos_of_mem ((findLastOf_append_left dir notBehind).trans search) small
    have total : (dir ++ sep :: name).length = dir.length + (name.length + 1) := by simp
    rw [getFileName_eq nonempty file.last small isCut (by omega), Option.some.injEq] at isName
    have sameLength := congrArg List.length isName
    rw [List.length_drop, total] at sameLength
    omega
  · rintro ⟨clean, small⟩
    exact ⟨file.getFilePath_eq clean small, file.getFileName_eq clean small⟩

/-- Both separators may occur, as long as no slash comes behind the last backslash: a backslash is
looked for first. -/
theorem getFilePath_getFileName_mixed :
    getFilePath "a/b\x5cc".toList = some "a/b".toList ∧ getFileName "a/b\x5cc".toList = some "c".toList :=
  (getFilePath_getFileName_iff "a/b".toList '\x5c' "c".toList
    ⟨by decide, by decide, by decide, by decide, by simp [isSeparator]⟩).mpr ⟨Or.inl rfl, by decide⟩

/-- In `a\b/c` the name is looked for behind the backslash, although a slash comes later. -/
theorem slash_behind_backslash :
    ¬ ∀ dir sep name, IsFile dir sep name →
      getFilePath (dir ++ sep :: name) = some dir ∧ getFileName (dir ++ sep :: name) = some name := by
  intro claim
  have isName := (claim "a\x5cb".toList '/' "c".toList
    ⟨by decide, by decide, by decide, by decide, by simp [isSeparator]⟩).2
  have isCut : cutPos "a\x5cb/c".toList = 1 := @cutPos_of_mem _ 1 (by decide) (by decide)
  have found := @getFileName_eq "a\x5cb/c".toList 1 (by decide) (by decide) (by decide) isCut (by decide)
  exact absurd (isName.symm.trans found) (by decide)

end OpenTaker.CStdString
