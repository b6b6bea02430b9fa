import OpenTaker.FilePaths
import OpenTaker.PrefixTrees

/-!
# Directories

`CreateAllDir` copies a path character by character and calls `mkdir` on the copy in front of
each separator, unless a colon is before it. What it returns is the answer to the last `mkdir`
alone, which is about the whole path.

The file system is a tree of names with the current directory in it. A path is a walk through the
tree: an empty component is no move, a single dot stays, two dots go up, and everything else is
the name of a child. Which characters separate components is up to the system.
-/

namespace OpenTaker.Directories

open CStdString PrefixTrees

/-! ## The file system -/

/-- The move a component stands for. Between two separators there may be nothing, which is no move. -/
def component (comp : Chars) : List (Move Chars) :=
  if comp = [] then [] else if comp = ['.'] then [.stay] else if comp = ['.', '.'] then [.up] else [.enter comp]

/-- The moves of a path, the first characters of whose first component are known. -/
def movesFrom (separates : Char → Bool) (comp : Chars) : Chars → List (Move Chars)
  | [] => component comp
  | char :: rest =>
      if separates char then component comp ++ movesFrom separates [] rest
      else movesFrom separates (comp ++ [char]) rest

/-- The moves of a path. All paths start at the current directory here, as `CreateAllDir` cannot take one
that starts with a separator. -/
def moves (separates : Char → Bool) (path : Chars) : List (Move Chars) := movesFrom separates [] path

/-- Slashes separate components on Linux, and backslashes do not. -/
def linux (char : Char) : Bool := char = '/'

/-- `CreateAllDir` stops at both slashes, and so at all characters that separate on Linux. -/
theorem isSeparator_of_linux (char : Char) (separates : linux char) : isSeparator char := by
  have slash := of_decide_eq_true separates
  rw [slash]
  rfl

/-- `mkdir`: the way to the directory must be there and end with a name, and the directory must not be
there. A path that ends in dots is never made: it exists already, or the way to it does not. -/
def mkdir (separates : Char → Bool) (dirs : PathTree Chars) (dirName : Chars) : Int × PathTree Chars :=
  (if dirs.Makes (moves separates dirName) then 0 else -1, dirs.make (moves separates dirName))

example : (mkdir linux ((PathTree.bare Chars).make [.enter ['a']]) "./a/../b/".toList).1 = 0 := by decide

/-- `IsDirExist`. The system finds no file of no name, and else walks the path. -/
def isDirExist (separates : Char → Bool) (dirs : PathTree Chars) (path : Chars) : Bool :=
  decide (path ≠ []) && dirs.follows (moves separates path)

/-! ## The loop -/

/-- What the loop does with the directories at a character. It reads the character before a separator,
and before the first one there is nothing to read. -/
def dirStep (separates : Char → Bool) (dirName : Chars) (char : Char) (dirs : PathTree Chars) :
    Option (PathTree Chars) :=
  if isSeparator char then do
    let before ← dirName.getLast?
    some (if before ≠ ':' then (mkdir separates dirs dirName).2 else dirs)
  else some dirs

/-- The loop over the characters: what is in `dir_name`, which has room for 256 characters, the rest at
`p`, and the directories. -/
def dirLoop (separates : Char → Bool) (dirName : Chars) :
    Chars → PathTree Chars → Option (Chars × PathTree Chars)
  | [], dirs => some (dirName, dirs)
  | char :: rest, dirs => do
      let dirs ← dirStep separates dirName char dirs
      if dirName.length + 1 < 256 then dirLoop separates (dirName ++ [char]) rest dirs else none

/-- `CreateAllDir`. What the loop's calls of `mkdir` return is dropped; only the last one, on the whole
path, is looked at. -/
def createAllDir (separates : Char → Bool) (dirs : PathTree Chars) (path : Chars) :
    Option (Bool × PathTree Chars) :=
  if isDirExist separates dirs path then some (true, dirs)
  else do
    let (dirName, dirs) ← dirLoop separates [] path dirs
    let (z, dirs) := mkdir separates dirs dirName
    some (decide (z = 0), dirs)

/-- `CreateFilePath`. What `open` says of the file depends on the directories that are there. -/
def createFilePath (separates : Char → Bool) (dirs : PathTree Chars) (filePath : Chars)
    (opens : PathTree Chars → Bool) : Option (Bool × PathTree Chars) := do
  let fileDir ← getFilePath filePath
  let (created, dirs) ← createAllDir separates dirs fileDir
  some (created && opens dirs, dirs)

/-! ## The cuts -/

/-- A beginning of a path that stands in front of a separator and does not end in a colon. The colon is
meant for a drive, but stops the loop behind any name that ends in one. -/
def IsCut (path before : Chars) : Prop :=
  ∃ sep after, path = before ++ sep :: after ∧ isSeparator sep ∧ before.getLast? ≠ some ':'

/-- The beginnings that `mkdir` is called on in the loop, behind some characters, in the order of the
calls: each is shorter than the next. -/
def cuts (before : Chars) : Chars → List Chars
  | [] => []
  | char :: rest =>
      if isSeparator char ∧ before.getLast? ≠ some ':' then before :: cuts (before ++ [char]) rest
      else cuts (before ++ [char]) rest

variable {separates : Char → Bool} {dirs : PathTree Chars} {path before cut : Chars} {other : List (Move Chars)}

/-- The next character gives a beginning of its own, or only those behind it do. -/
theorem mem_cuts_cons {char : Char} {rest : Chars} : cut ∈ cuts before (char :: rest) ↔
    (cut = before ∧ isSeparator char ∧ before.getLast? ≠ some ':') ∨ cut ∈ cuts (before ++ [char]) rest := by
  rw [cuts]
  split
  · rename_i stops
    rw [List.mem_cons]
    exact or_congr_left (and_iff_left stops).symm
  · rename_i goes
    constructor
    · exact Or.inr
    · rintro (⟨-, stops⟩ | mem)
      · exact absurd stops goes
      · exact mem

/-- The calls in terms of the text alone, so that the loop is not needed to speak of them. The induction
moves one character from what is left to what was copied. -/
theorem mem_cuts : cut ∈ cuts before path ↔
    ∃ more sep after, path = more ++ sep :: after ∧ cut = before ++ more ∧ isSeparator sep ∧
      cut.getLast? ≠ some ':' := by
  induction path generalizing before with
  | nil =>
    rw [cuts]
    simp
  | cons char rest inductionHypothesis =>
    rw [mem_cuts_cons, inductionHypothesis]
    constructor
    · rintro (⟨rfl, isSep, noColon⟩ | ⟨more, sep, after, rfl, isCut, isSep, noColon⟩)
      · exact ⟨[], char, rest, rfl, (List.append_nil _).symm, isSep, noColon⟩
      · rw [List.append_assoc, List.singleton_append] at isCut
        exact ⟨char :: more, sep, after, rfl, isCut, isSep, noColon⟩
    · rintro ⟨more, sep, after, split, isCut, isSep, noColon⟩
      cases more with
      | nil =>
        obtain ⟨rfl, rfl⟩ := List.cons.inj split
        rw [List.append_nil] at isCut
        subst isCut
        exact Or.inl ⟨rfl, isSep, noColon⟩
      | cons first more =>
        obtain ⟨rfl, rfl⟩ := List.cons.inj split
        refine Or.inr ⟨more, sep, after, rfl, ?_, isSep, noColon⟩
        rw [isCut, List.append_assoc, List.singleton_append]

/-- The beginnings of a path that `mkdir` is called on in the loop are its cuts. -/
theorem mem_cuts_nil : cut ∈ cuts [] path ↔ IsCut path cut := by
  rw [mem_cuts]
  constructor
  · rintro ⟨more, sep, after, rfl, rfl, isCut⟩
    exact ⟨sep, after, rfl, isCut⟩
  · rintro ⟨sep, after, rfl, isCut⟩
    exact ⟨cut, sep, after, rfl, rfl, isCut⟩

/-! ## The moves in front of a cut -/

/-- A component is one move or none, so that at most the last move of a beginning is not a move of the
whole path. -/
theorem component_cases (comp : Chars) : component comp = [] ∨ ∃ move, component comp = [move] := by
  rw [component]
  split
  · exact Or.inl rfl
  split
  · exact Or.inr ⟨_, rfl⟩
  split <;> exact Or.inr ⟨_, rfl⟩

/-- A component that goes on stays a move, though it may become another one: a dot becomes two dots, and
two dots a name. -/
theorem length_component_append (comp more : Chars) :
    (component comp).length ≤ (component (comp ++ more)).length := by
  by_cases empty : comp = []
  · rw [component, if_pos empty]
    exact Nat.zero_le _
  · have goesOn : comp ++ more ≠ [] := fun nothing => empty (List.append_eq_nil_iff.mp nothing).1
    have one {comp : Chars} (nonempty : comp ≠ []) : (component comp).length = 1 := by
      rw [component, if_neg nonempty]
      split
      · rfl
      split <;> rfl
    rw [one empty, one goesOn]

/-- A path has no fewer moves than its beginnings. -/
theorem length_movesFrom_le (separates : Char → Bool) (comp path more : Chars) :
    (movesFrom separates comp path).length ≤ (movesFrom separates comp (path ++ more)).length := by
  induction path generalizing comp with
  | nil =>
    rw [List.nil_append, movesFrom]
    induction more generalizing comp with
    | nil => exact Nat.le_refl _
    | cons char rest inductionHypothesis =>
      rw [movesFrom]
      split
      · rw [List.length_append]
        exact Nat.le_add_right _ _
      · exact Nat.le_trans (length_component_append comp [char]) (inductionHypothesis (comp ++ [char]))
  | cons char rest inductionHypothesis =>
    rw [List.cons_append, movesFrom, movesFrom]
    split
    · rw [List.length_append, List.length_append]
      exact Nat.add_le_add_left (inductionHypothesis []) _
    · exact inductionHypothesis (comp ++ [char])

/-- Up to its last move a beginning of a path goes the way of the path. The last one may differ, since
the loop stops within a component at a character that does not separate for the system. -/
theorem dropLast_movesFrom_prefix (separates : Char → Bool) (comp path more : Chars) :
    (movesFrom separates comp path).dropLast <+: movesFrom separates comp (path ++ more) := by
  induction path generalizing comp with
  | nil =>
    rw [movesFrom]
    rcases component_cases comp with none | ⟨move, one⟩
    · rw [none]
      exact List.nil_prefix
    · rw [one]
      exact List.nil_prefix
  | cons char rest inductionHypothesis =>
    rw [List.cons_append, movesFrom, movesFrom]
    split
    · by_cases empty : movesFrom separates [] rest = []
      · rw [empty, List.append_nil]
        exact (List.dropLast_prefix _).trans (List.prefix_append _ _)
      · rw [List.dropLast_append_of_ne_nil empty]
        exact (List.prefix_append_right_inj _).mpr (inductionHypothesis [])
    · exact inductionHypothesis (comp ++ [char])

/-- The cuts come in an order in which the moves do not become fewer. -/
theorem pairwise_cuts (separates : Char → Bool) (before path : Chars) :
    ((cuts before path).map (moves separates)).Pairwise
      (fun earlier later => earlier.length ≤ later.length) := by
  rw [List.pairwise_map]
  induction path generalizing before with
  | nil => exact List.Pairwise.nil
  | cons char rest inductionHypothesis =>
    rw [cuts]
    split
    · refine List.pairwise_cons.mpr ⟨fun later mem => ?_, inductionHypothesis _⟩
      obtain ⟨more, sep, after, -, rfl, -⟩ := mem_cuts.mp mem
      rw [List.append_assoc]
      exact length_movesFrom_le separates [] before _
    · exact inductionHypothesis _

/-- Each of the calls goes the way of the path, up to its last move. -/
theorem cuts_along (separates : Char → Bool) (path : Chars) :
    ∀ row ∈ (cuts [] path).map (moves separates), row.dropLast <+: moves separates path := by
  intro row mem
  obtain ⟨before, isCut, rfl⟩ := List.mem_map.mp mem
  obtain ⟨sep, after, rfl, -⟩ := mem_cuts_nil.mp isCut
  exact dropLast_movesFrom_prefix separates [] before (sep :: after)

/-- A proper beginning of the moves of a path is empty, or is what stands in front of a character that
separates. The cases follow the components, and at each one whether it is a move. -/
theorem beginning_cases {comp : Chars} (beginning : other <+: movesFrom separates comp path)
    (proper : other ≠ movesFrom separates comp path) :
    other = [] ∨ ∃ before sep after, path = before ++ sep :: after ∧ separates sep ∧
      movesFrom separates comp before = other := by
  induction path generalizing comp other with
  | nil =>
    rw [movesFrom] at beginning proper
    rcases component_cases comp with none | ⟨move, one⟩
    · rw [none] at beginning
      exact Or.inl (List.prefix_nil.mp beginning)
    · rw [one] at beginning proper
      rcases List.prefix_cons_iff.mp beginning with rfl | ⟨inner, rfl, inside⟩
      · exact Or.inl rfl
      · exact absurd (congrArg (move :: ·) (List.prefix_nil.mp inside)) proper
  | cons char rest inductionHypothesis =>
    rw [movesFrom] at beginning proper
    by_cases isSep : separates char
    · rw [if_pos isSep] at beginning proper
      rcases component_cases comp with none | ⟨move, one⟩
      · rw [none, List.nil_append] at beginning proper
        rcases inductionHypothesis beginning proper with rfl | ⟨before, sep, after, rfl, stops, rfl⟩
        · exact Or.inl rfl
        · refine Or.inr ⟨char :: before, sep, after, rfl, stops, ?_⟩
          rw [movesFrom, if_pos isSep, none, List.nil_append]
      · rw [one, List.singleton_append] at beginning proper
        rcases List.prefix_cons_iff.mp beginning with rfl | ⟨inner, rfl, inside⟩
        · exact Or.inl rfl
        · right
          rcases inductionHypothesis inside (fun same => proper (congrArg (move :: ·) same)) with
            rfl | ⟨before, sep, after, rfl, stops, rfl⟩
          · exact ⟨[], char, rest, rfl, isSep, one⟩
          · refine ⟨char :: before, sep, after, rfl, stops, ?_⟩
            rw [movesFrom, if_pos isSep, one, List.singleton_append]
    · rw [if_neg isSep] at beginning proper
      rcases inductionHypothesis beginning proper with rfl | ⟨before, sep, after, rfl, stops, rfl⟩
      · exact Or.inl rfl
      · refine Or.inr ⟨char :: before, sep, after, rfl, stops, ?_⟩
        rw [movesFrom, if_neg isSep]

/-! ## What is created -/

/-- The place a walk leads to is made by the loop, if it is missing and the way there is open: a cut that
ends with a name leads there and has no more moves than the walk. -/
def OnTheWay (separates : Char → Bool) (dirs : PathTree Chars) (path : Chars) (other : List (Move Chars)) :
    Prop :=
  ∃ before, IsCut path before ∧ (moves separates before).getLast?.any Move.enters ∧
    (moves separates before).length ≤ other.length ∧ dirs.reach (moves separates before) = dirs.reach other

/-- The definition in the terms of the library: some row of moves leads to the place before the path
does. -/
theorem onTheWay_iff :
    OnTheWay separates dirs path other ↔ dirs.Leads ((cuts [] path).map (moves separates)) other := by
  simp only [OnTheWay, PathTree.Leads, List.mem_map, mem_cuts_nil, exists_exists_and_eq_and]

/-- It can be decided by going through the beginnings of the path on which `mkdir` is called. -/
instance : Decidable (OnTheWay separates dirs path other) :=
  decidable_of_iff (∃ row ∈ (cuts [] path).map (moves separates), row.getLast?.any Move.enters ∧
    row.length ≤ other.length ∧ dirs.reach row = dirs.reach other) onTheWay_iff.symm

/-- A path that starts with no separator and fits into `dir_name`. -/
structure IsRelative (path : Chars) : Prop where
  nonempty : path ≠ []
  relative : ∀ first ∈ path.head?, isSeparator first = false
  fits : path.length < 256

/-- The directories after the loop of `CreateAllDir`, in front of the last `mkdir`. -/
def afterLoop (separates : Char → Bool) (dirs : PathTree Chars) (path : Chars) : PathTree Chars :=
  dirs.makeAll ((cuts [] path).map (moves separates))

/-- The loop leads nowhere else: it changes what is there, not what a path stands for. -/
@[simp] theorem reach_afterLoop : (afterLoop separates dirs path).reach other = dirs.reach other :=
  PathTree.reach_makeAll _

/-- `mkdir` returns zero just where it makes a directory. -/
theorem mkdir_fst_iff {dirName : Chars} :
    (mkdir separates dirs dirName).1 = 0 ↔ dirs.Makes (moves separates dirName) := by
  rw [mkdir]
  split
  · rename_i makes
    exact iff_of_true rfl makes
  · rename_i idle
    exact iff_of_false (by simp) idle

/-- A directory is created in front of a separator that has no colon before it. -/
theorem dirStep_eq {dirName : Chars} {char : Char} (readable : dirName ≠ [] ∨ isSeparator char = false) :
    dirStep separates dirName char dirs =
      some (if isSeparator char ∧ dirName.getLast? ≠ some ':' then dirs.make (moves separates dirName)
        else dirs) := by
  rw [dirStep]
  by_cases isSep : isSeparator char
  · have nonempty : dirName ≠ [] := readable.resolve_right (by simp [isSep])
    rw [if_pos isSep, List.getLast?_eq_some_getLast nonempty, Option.bind_eq_bind, Option.bind_some, mkdir]
    simp only [isSep, true_and, ne_eq, Option.some.injEq]
  · rw [if_neg isSep, if_neg fun cut => isSep cut.1]

/-- The loop copies the whole text and makes what its cuts make. The induction is on what is left to
copy, and only the first character of all may not be a separator. -/
theorem dirLoop_eq {dirName : Chars} (fits : dirName.length + path.length < 256)
    (readable : dirName ≠ [] ∨ ∀ first ∈ path.head?, isSeparator first = false) :
    dirLoop separates dirName path dirs =
      some (dirName ++ path, dirs.makeAll ((cuts dirName path).map (moves separates))) := by
  induction path generalizing dirName dirs with
  | nil => rw [dirLoop, List.append_nil, cuts, List.map_nil, PathTree.makeAll, List.foldl_nil]
  | cons char rest inductionHypothesis =>
    rw [List.length_cons] at fits
    have longer : (dirName ++ [char]).length + rest.length < 256 := by
      rw [List.length_append, List.length_singleton]
      omega
    rw [dirLoop, dirStep_eq (readable.imp_right fun plain => plain char rfl), Option.bind_eq_bind,
      Option.bind_some, if_pos (by omega), inductionHypothesis longer (Or.inl (by simp)), List.append_assoc,
      List.singleton_append, cuts]
    split
    · rw [List.map_cons, PathTree.makeAll, PathTree.makeAll, List.foldl_cons]
    · rfl

/-- After the loop a beginning of the path can be walked just if each place on it was there or is made
on the way. -/
theorem follows_afterLoop (beginning : other <+: moves separates path) :
    (afterLoop separates dirs path).follows other ↔
      ∀ inner, inner <+: other → dirs.holds (dirs.reach inner) ∨ OnTheWay separates dirs path inner := by
  rw [afterLoop, PathTree.follows_makeAll dirs (pairwise_cuts separates [] path) (cuts_along separates path)
    beginning]
  simp only [onTheWay_iff]

/-- A directory that is found is left as it is. -/
theorem createAllDir_of_follows (relative : IsRelative path) (found : dirs.follows (moves separates path)) :
    createAllDir separates dirs path = some (true, dirs) := by
  rw [createAllDir, isDirExist, if_pos (by simp [relative.nonempty, found])]

/-- What a call does that does not find the directory. -/
theorem createAllDir_eq (relative : IsRelative path) (absent : ¬ dirs.follows (moves separates path)) :
    createAllDir separates dirs path =
      some (decide ((mkdir separates (afterLoop separates dirs path) path).1 = 0),
        (afterLoop separates dirs path).make (moves separates path)) := by
  have looped := @dirLoop_eq separates dirs path [] (by simpa using relative.fits) (Or.inr relative.relative)
  rw [createAllDir, isDirExist, if_neg (by simp [absent]), looped, Option.bind_eq_bind, Option.bind_some,
    List.nil_append]
  rfl

/-- What the last `mkdir` needs in order to create the directory, in terms of what was there before the
call: the path ends with a name, the directory is not there and not made on the way, and every place
before it is. -/
structure LastCreates (separates : Char → Bool) (dirs : PathTree Chars) (path : Chars) : Prop where
  named : (moves separates path).getLast?.any Move.enters
  absent : ¬ dirs.holds (dirs.reach (moves separates path))
  last : ¬ OnTheWay separates dirs path (moves separates path)
  before : ∀ other, other <+: moves separates path → other ≠ moves separates path →
    dirs.holds (dirs.reach other) ∨ OnTheWay separates dirs path other

/-- The proper beginnings of a walk are the beginnings of what is in front of its last move. -/
theorem prefix_dropLast_iff {route : List (Move Chars)} (nonempty : route ≠ []) :
    other <+: route.dropLast ↔ other <+: route ∧ other ≠ route := by
  obtain ⟨before, last, rfl⟩ : ∃ before last, route = before ++ [last] :=
    ⟨_, _, (List.dropLast_append_getLast nonempty).symm⟩
  rw [List.dropLast_concat, List.prefix_concat_iff]
  constructor
  · intro beginning
    refine ⟨Or.inr beginning, fun same => ?_⟩
    have shorter := beginning.length_le
    rw [same, List.length_append, List.length_singleton] at shorter
    omega
  · rintro ⟨same | beginning, proper⟩
    · exact absurd same proper
    · exact beginning

/-- The last `mkdir` creates the directory just if the state before the call lets it. -/
theorem mkdir_afterLoop :
    (mkdir separates (afterLoop separates dirs path) path).1 = 0 ↔ LastCreates separates dirs path := by
  rw [mkdir_fst_iff, PathTree.Makes, follows_afterLoop (List.dropLast_prefix _), reach_afterLoop]
  have nonempty (named : (moves separates path).getLast?.any Move.enters) : moves separates path ≠ [] := by
    intro empty
    rw [empty] at named
    cases named
  constructor
  · rintro ⟨named, way, missing⟩
    have before (other) (beginning : other <+: moves separates path) (proper : other ≠ moves separates path) :=
      way other ((prefix_dropLast_iff (nonempty named)).mpr ⟨beginning, proper⟩)
    -- Where the place was there or made on the way, the whole path could be walked after the loop.
    have walked (there : dirs.holds (dirs.reach (moves separates path)) ∨
        OnTheWay separates dirs path (moves separates path)) : False := by
      have follows : (afterLoop separates dirs path).follows (moves separates path) := by
        refine (follows_afterLoop (List.prefix_refl _)).mpr fun other beginning => ?_
        by_cases same : other = moves separates path
        · rwa [same]
        · exact before other beginning same
      have held := PathTree.holds_of_follows follows
      rw [reach_afterLoop] at held
      exact missing held
    exact ⟨named, fun held => walked (Or.inl held), fun onTheWay => walked (Or.inr onTheWay), before⟩
  · intro creates
    have beginnings (other) := @prefix_dropLast_iff other _ (nonempty creates.named)
    have way : ∀ other, other <+: (moves separates path).dropLast →
        dirs.holds (dirs.reach other) ∨ OnTheWay separates dirs path other := fun other inside =>
      creates.before other ((beginnings other).mp inside).1 ((beginnings other).mp inside).2
    refine ⟨creates.named, way, fun held => ?_⟩
    -- The way is open and the place is there, so the path could be walked, against what was assumed.
    have follows : (afterLoop separates dirs path).follows (moves separates path) :=
      PathTree.follows_iff_dropLast.mpr ⟨(follows_afterLoop (List.dropLast_prefix _)).mpr way, by
        rwa [reach_afterLoop]⟩
    rcases (follows_afterLoop (List.prefix_refl _)).mp follows _ (List.prefix_refl _) with there | onTheWay
    · exact creates.absent there
    · exact creates.last onTheWay

/-- The call says that it succeeded, and every place on the way and the directory itself are there. -/
def Creates (separates : Char → Bool) (dirs : PathTree Chars) (path : Chars) : Prop :=
  ∃ created, createAllDir separates dirs path = some (true, created) ∧
    ∀ other, other <+: moves separates path → created.holds (created.reach other)

/-- The call succeeds just if the directory is found at once, or the last `mkdir` creates it. Both
are told from the tree of directories before the call. -/
theorem createAllDir_creates_iff (separates : Char → Bool) (dirs : PathTree Chars) (path : Chars)
    (relative : IsRelative path) :
    Creates separates dirs path ↔
      dirs.follows (moves separates path) ∨ LastCreates separates dirs path := by
  by_cases found : dirs.follows (moves separates path)
  · exact iff_of_true ⟨dirs, createAllDir_of_follows relative found, PathTree.follows_iff.mp found⟩
      (Or.inl found)
  · rw [or_iff_right found, ← mkdir_afterLoop, Creates, createAllDir_eq relative found]
    constructor
    · rintro ⟨created, isCreated, -⟩
      exact of_decide_eq_true (congrArg Prod.fst (Option.some.inj isCreated))
    · intro succeeds
      refine ⟨_, by rw [succeeds]; rfl, PathTree.follows_iff.mp ?_⟩
      obtain ⟨named, way, -⟩ := mkdir_fst_iff.mp succeeds
      refine PathTree.follows_iff_dropLast.mpr ⟨?_, ?_⟩
      · refine PathTree.follows_iff.mpr fun other inside => PathTree.holds_make.mpr (Or.inl ?_)
        rw [PathTree.reach_make]
        exact PathTree.follows_iff.mp way other inside
      · rw [PathTree.reach_make]
        exact PathTree.holds_make.mpr (Or.inr ⟨rfl, named, way⟩)

/-! ## Paths without colons -/

/-- Without colons the loop opens the whole way, up to the last move. The induction is on the walk: a
child that is entered is made in front of the separator behind its name, and any other move stays
within the tree. -/
theorem follows_afterLoop_of_noColon (stops : ∀ char, separates char → isSeparator char)
    (noColon : ':' ∉ path) (beginning : other <+: moves separates path)
    (proper : other ≠ moves separates path) :
    (afterLoop separates dirs path).follows other := by
  induction other using List.reverseRecOn with
  | nil => exact PathTree.start_held _
  | append_singleton inner last inductionHypothesis =>
    have shorter : inner <+: moves separates path := (List.prefix_append inner [last]).trans beginning
    have follows : (afterLoop separates dirs path).follows inner := by
      refine inductionHypothesis shorter ?_
      rintro rfl
      have := beginning.length_le
      rw [List.length_append, List.length_singleton] at this
      omega
    by_cases enters : last.enters
    · rcases beginning_cases beginning proper with empty | ⟨before, sep, after, isPath, isSep, isMoves⟩
      · simp at empty
      · refine (follows_afterLoop beginning).mpr fun place inside => ?_
        rcases List.prefix_concat_iff.mp inside with rfl | inside
        · refine Or.inr ⟨before, ⟨sep, after, isPath, stops sep isSep, fun last => noColon ?_⟩, ?_⟩
          · rw [isPath]
            exact List.mem_append_left _ (List.mem_of_getLast? last)
          · rw [moves, isMoves, List.getLast?_concat]
            exact ⟨enters, Nat.le_refl _, rfl⟩
        · exact (follows_afterLoop shorter).mp follows place inside
    · rw [PathTree.follows_iff_dropLast, List.dropLast_concat, PathTree.reach_concat]
      exact ⟨follows, PathTree.holds_next (Bool.not_eq_true _ ▸ enters) (PathTree.holds_of_follows follows)⟩

/-- In a path without colons every place before the end is there or made on the way. -/
theorem onTheWay_of_noColon (stops : ∀ char, separates char → isSeparator char) (noColon : ':' ∉ path)
    (beginning : other <+: moves separates path) (proper : other ≠ moves separates path) :
    dirs.holds (dirs.reach other) ∨ OnTheWay separates dirs path other :=
  (follows_afterLoop beginning).mp (follows_afterLoop_of_noColon stops noColon beginning proper) other
    (List.prefix_refl other)

/-- Two dots in the middle of a path go up from the directory that was made in front of them. -/
theorem createAllDir_creates_two : Creates linux (.bare Chars) "a/../b/c".toList :=
  (createAllDir_creates_iff linux (.bare Chars) "a/../b/c".toList
    ⟨by decide, by rintro first ⟨⟩; rfl, by decide⟩).mpr
      (Or.inr ⟨by decide, by decide, by decide, fun _ => onTheWay_of_noColon isSeparator_of_linux (by decide)⟩)

/-- A directory that ends in a separator is created in the loop, and the last `mkdir` finds it there. -/
theorem created_but_denied :
    ¬ ∀ separates dirs path, IsRelative path → Creates separates dirs path := by
  intro claim
  obtain ⟨created, isCreated, -⟩ := claim linux (.bare Chars) "a/".toList
    ⟨by decide, by rintro first ⟨⟩; rfl, by decide⟩
  have denied : (createAllDir linux (.bare Chars) "a/".toList).map Prod.fst = some false := by decide
  rw [isCreated] at denied
  cases denied

/-- What is behind a character that separates begins with a new component. -/
theorem movesFrom_append {comp after : Chars} {sep : Char} (isSep : separates sep) :
    movesFrom separates comp (before ++ sep :: after) =
      movesFrom separates comp before ++ moves separates after := by
  induction before generalizing comp with
  | nil => rw [List.nil_append, movesFrom, movesFrom, if_pos isSep, moves]
  | cons char rest inductionHypothesis =>
    rw [List.cons_append, movesFrom, movesFrom]
    split
    · rw [inductionHypothesis, List.append_assoc]
    · exact inductionHypothesis

/-- A directory whose path ends in a separator is made on the way, so that the last `mkdir` fails for any
of them that was not there before. -/
theorem onTheWay_of_trailing {sep : Char} (separated : separates sep) (isSep : isSeparator sep)
    (named : (moves separates before).getLast?.any Move.enters) (noColon : before.getLast? ≠ some ':') :
    OnTheWay separates dirs (before ++ [sep]) (moves separates (before ++ [sep])) := by
  have same : moves separates (before ++ [sep]) = moves separates before := by
    rw [moves, movesFrom_append separated, moves]
    exact List.append_nil _
  rw [same]
  exact ⟨before, ⟨sep, [], rfl, isSep, noColon⟩, named, Nat.le_refl _, rfl⟩

/-- Without colons the directory is there after a call, whatever the call returns. -/
theorem createAllDir_follows (relative : IsRelative path)
    (stops : ∀ char, separates char → isSeparator char) (noColon : ':' ∉ path) :
    ∃ result created, createAllDir separates dirs path = some (result, created) ∧
      created.follows (moves separates path) := by
  by_cases found : dirs.follows (moves separates path)
  · exact ⟨true, dirs, createAllDir_of_follows relative found, found⟩
  · refine ⟨_, _, createAllDir_eq relative found, ?_⟩
    cases route : moves separates path using List.reverseRecOn with
    | nil => exact PathTree.start_held _
    | append_singleton inner last =>
      have beginning : inner <+: moves separates path := route ▸ List.prefix_append inner [last]
      have follows : (afterLoop separates dirs path).follows inner := by
        refine follows_afterLoop_of_noColon stops noColon beginning fun same => ?_
        rw [route] at same
        exact absurd (congrArg List.length same) (by simp)
      rw [PathTree.follows_iff_dropLast, List.dropLast_concat]
      constructor
      · refine PathTree.follows_iff.mpr fun place inside => PathTree.holds_make.mpr (Or.inl ?_)
        rw [PathTree.reach_make]
        exact PathTree.follows_iff.mp follows place inside
      · rw [PathTree.reach_make, PathTree.holds_make]
        by_cases enters : last.enters
        · refine Or.inr ⟨rfl, ?_, ?_⟩
          · rw [List.getLast?_concat]
            exact enters
          · rwa [List.dropLast_concat]
        · refine Or.inl ?_
          rw [PathTree.reach_concat]
          exact PathTree.holds_next (Bool.not_eq_true _ ▸ enters) (PathTree.holds_of_follows follows)

/-- Without colons a call for a path that ends with a name fails just if the directory is made on the way,
as it is in front of a separator at the end of the path, or is there though the way to it was not. -/
theorem creates_iff_of_noColon (relative : IsRelative path)
    (stops : ∀ char, separates char → isSeparator char) (noColon : ':' ∉ path)
    (named : (moves separates path).getLast?.any Move.enters) :
    Creates separates dirs path ↔ dirs.follows (moves separates path) ∨
      ¬ dirs.holds (dirs.reach (moves separates path)) ∧
        ¬ OnTheWay separates dirs path (moves separates path) := by
  rw [createAllDir_creates_iff separates dirs path relative]
  refine or_congr_right ⟨fun creates => ⟨creates.absent, creates.last⟩, fun ⟨absent, last⟩ => ?_⟩
  exact ⟨named, absent, last, fun other => onTheWay_of_noColon stops noColon⟩

/-- A path that ends in dots is only found, never made: where it is not found the call fails. -/
theorem creates_iff_of_dots (relative : IsRelative path)
    (dots : (moves separates path).getLast?.any Move.enters = false) :
    Creates separates dirs path ↔ dirs.follows (moves separates path) := by
  rw [createAllDir_creates_iff separates dirs path relative]
  refine or_iff_left fun creates => ?_
  rw [creates.named] at dots
  cases dots

/-! ## Files -/

/-- A file is opened below its directory once that has been created. -/
theorem createFilePath_eq {name : Chars} {sep : Char} {opens : PathTree Chars → Bool}
    (file : IsFile path sep name) (clean : sep = '\x5c' ∨ '\x5c' ∉ path)
    (small : (path ++ sep :: name).length < 2 ^ 31) (creates : Creates separates dirs path) :
    ∃ created, createFilePath separates dirs (path ++ sep :: name) opens = some (opens created, created) ∧
      created.follows (moves separates path) := by
  obtain ⟨created, isCreated, held⟩ := creates
  refine ⟨created, ?_, PathTree.follows_iff.mpr held⟩
  rw [createFilePath, file.getFilePath_eq clean small, Option.bind_eq_bind, Option.bind_some, isCreated,
    Option.bind_eq_bind, Option.bind_some]
  dsimp only
  rw [Bool.true_and]

end OpenTaker.Directories
