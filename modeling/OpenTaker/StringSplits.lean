import OpenTaker.StdStrings
import OpenTaker.InetAddrText
import OpenTaker.Stretches
import OpenTaker.LeftmostCuts

/-!
# Splitting strings

`StrSplit` and `StrSplit_s` are one loop. It searches a delimiter from a position on, puts
what lies in front of it into the vector unless that is empty, and goes on behind the
delimiter: by one character, or by the length of the delimiter string. A delimiter string of
no length is found at the position itself, again and again.

Both return the size of the vector, a `size_t`, as an `int`.
-/

namespace OpenTaker

open AddressText Stretches LeftmostCuts

namespace CStdString

/-! ## The two functions -/

/-- The `while` loop of both functions, with the position it is at and the pieces found. -/
def splitLoop (search : Nat → Option Nat) (width : Nat) (src : Chars) :
    Nat → Nat → List Chars → Option (Nat × List Chars)
  | 0, _, _ => none
  | rounds + 1, pos, vec =>
      match search pos with
      | none => some (pos, vec)
      | some found =>
          splitLoop search width src rounds (found + width)
            (if found ≠ pos then vec ++ [substr src pos (found - pos)] else vec)

/-- What follows the loop: the last piece is added if it is not empty, and the pieces are counted. -/
def splitTail (src : Chars) (state : Nat × List Chars) : Int × List Chars :=
  let vec := if state.1 ≠ src.length then state.2 ++ [src.drop state.1] else state.2
  (toInt vec.length, vec)

/-- `StrSplit`, if the loop ends within so many rounds. -/
def strSplit (rounds : Nat) (src : Chars) (delim : List Char) (vec : List Chars) : Option (Int × List Chars) :=
  (splitLoop (findFirstOf src delim) 1 src rounds 0 vec).map (splitTail src)

/-- `StrSplit_s`, if the loop ends within so many rounds. -/
def strSplit_s (rounds : Nat) (src delim : Chars) (vec : List Chars) : Option (Int × List Chars) :=
  (splitLoop (find src delim) delim.length src rounds 0 vec).map (splitTail src)

/-! ## Delimiters of one character -/

/-- No delimiter stands at the position, so that its character belongs to a piece. -/
def plain (src : Chars) (delim : List Char) (pos : Nat) : Bool := decide (src.getD pos '\x00' ∉ delim)

variable {src : Chars} {delim : List Char} {pos found : Nat} {vec : List Chars}

/-- A position is cut off just if its character is a delimiter. Behind the end the terminator is
asked for. -/
theorem plain_eq_false : plain src delim pos = false ↔ src.getD pos '\x00' ∈ delim := by
  simp [plain]

/-- `find_first_of` gives the first position with a delimiter, from the given one on. -/
theorem findFirstOf_eq_some : findFirstOf src delim pos = some found ↔
    (pos ≤ found ∧ found < src.length) ∧ plain src delim found = false ∧
      ∀ earlier, pos ≤ earlier → earlier < found → plain src delim earlier = true := by
  rw [findFirstOf, List.find?_range'_eq_some, List.mem_range'_1]
  simp only [plain, decide_eq_true_eq, decide_not, Bool.not_eq_true', Bool.not_eq_false']
  constructor
  · rintro ⟨isDelim, inside, first⟩
    exact ⟨by omega, isDelim, first⟩
  · rintro ⟨inside, isDelim, first⟩
    exact ⟨isDelim, by omega, first⟩

/-- Where it gives none, there is no delimiter up to the end. -/
theorem findFirstOf_eq_none : findFirstOf src delim pos = none ↔
    ∀ later, pos ≤ later → later < src.length → plain src delim later = true := by
  rw [findFirstOf, List.find?_range'_eq_none]
  simp only [plain, decide_not, Bool.not_eq_true']
  constructor
  · exact fun free later lower upper => free later lower (by omega)
  · exact fun free later lower upper => free later lower (by omega)

/-- A piece is added when it is not empty, as the loop does at a delimiter. -/
theorem map_ended (src : Chars) (vec : List Chars) (pos found : Nat) (ahead : pos ≤ found) :
    vec ++ (ended pos found).map (piece src) =
      if found ≠ pos then vec ++ [substr src pos (found - pos)] else vec := by
  by_cases same : found = pos
  · simp [same]
  · rw [if_pos same, ended, if_pos (by omega)]
    rfl

/-- What is returned is the number of pieces as an int, which the code narrows from `size_t`. -/
theorem splitTail_fst (src : Chars) (state : Nat × List Chars) :
    (splitTail src state).1 = toInt (splitTail src state).2.length := by simp only [splitTail]

/-- What follows the loop puts the last piece into the vector. -/
theorem splitTail_snd (within : pos ≤ src.length) :
    (splitTail src (pos, vec)).2 = vec ++ (ended pos src.length).map (piece src) := by
  rw [map_ended src vec pos src.length within]
  simp only [splitTail, ne_comm (a := src.length), substr]
  rw [List.take_of_length_le (by rw [List.length_drop])]

/-- The loop of `StrSplit` puts the stretches between the delimiters into the vector. -/
theorem splitLoop_findFirstOf (src : Chars) (delim : List Char) (rounds pos : Nat) (vec : List Chars)
    (within : pos ≤ src.length) (enough : src.length - pos < rounds) :
    ∃ state, splitLoop (findFirstOf src delim) 1 src rounds pos vec = some state ∧
      (splitTail src state).2 =
        vec ++ (scan (plain src delim) pos pos (src.length - pos)).map (piece src) := by
  induction rounds generalizing pos vec with
  | zero => omega
  | succ rounds inductionHypothesis =>
    rw [splitLoop]
    cases search : findFirstOf src delim pos with
    | none =>
      refine ⟨(pos, vec), rfl, ?_⟩
      have free := findFirstOf_eq_none.mp search
      have skipped := @scan_skip (plain src delim) pos pos 0 (src.length - pos)
        fun offset bound => free _ (by omega) (by omega)
      rw [splitTail_snd within]
      rw [Nat.add_zero] at skipped
      rw [skipped, scan, Nat.add_sub_cancel' within]
    | some found =>
      obtain ⟨⟨ahead, inside⟩, isDelim, first⟩ := findFirstOf_eq_some.mp search
      obtain ⟨state, ran, appended⟩ := inductionHypothesis (found + 1)
        (if found ≠ pos then vec ++ [substr src pos (found - pos)] else vec) inside (by omega)
      refine ⟨state, ran, ?_⟩
      have skipped := @scan_skip (plain src delim) pos pos (src.length - (found + 1) + 1)
        (found - pos) fun offset bound => first _ (by omega) (by omega)
      rw [appended, ← map_ended src vec pos found ahead,
        show src.length - pos = found - pos + (src.length - (found + 1) + 1) by omega, skipped,
        Nat.add_sub_cancel' ahead, scan_cut isDelim, List.map_append, List.append_assoc]

/-- What a call of `StrSplit` does to the vector and returns, the loop having ended. -/
structure DelimSplit (src : Chars) (delim : List Char) (vec : List Chars) (result : Int × List Chars)
    (spans : List (Nat × Nat)) : Prop where
  are : AreStretches (plain src delim) src.length spans
  appended : result.2 = vec ++ spans.map (piece src)
  noDelim : ∀ span ∈ spans, ∀ char ∈ piece src span, char ∉ delim
  onePiece : ∀ pos < src.length, src.getD pos '\x00' ∉ delim →
    ∃! span, span ∈ spans ∧ span.1 ≤ pos ∧ pos < span.2
  size : result.1 = result.2.length

/-- The characters of a piece stand between its ends. -/
theorem mem_piece {span : Nat × Nat} {char : Char} (inside : span.2 ≤ src.length)
    (member : char ∈ piece src span) :
    ∃ pos, span.1 ≤ pos ∧ pos < span.2 ∧ src.getD pos '\x00' = char := by
  rw [piece, List.mem_iff_getElem] at member
  obtain ⟨offset, bound, rfl⟩ := member
  rw [List.length_take, List.length_drop] at bound
  refine ⟨span.1 + offset, by omega, by omega, ?_⟩
  rw [List.getElem_take, List.getElem_drop, List.getD_eq_getElem?_getD,
    List.getElem?_eq_getElem (by omega), Option.getD_some]

/-- `StrSplit` ends, and it appends the stretches of characters between the delimiters to the
vector. -/
theorem strSplit_eq (src : Chars) (delim : List Char) (vec : List Chars) :
    ∃ rounds result, strSplit rounds src delim vec = some result ∧
      result.2 = vec ++ (stretches (plain src delim) src.length).map (piece src) ∧
      result.1 = toInt result.2.length := by
  obtain ⟨state, ran, appended⟩ := splitLoop_findFirstOf src delim (src.length + 1) 0 vec
    (Nat.zero_le _) (by omega)
  refine ⟨src.length + 1, splitTail src state, ?_, appended, splitTail_fst src state⟩
  rw [strSplit, ran, Option.map_some]

/-- A vector whose size is what the call returns is small, as an int holds no size from `2^31` on. -/
theorem DelimSplit.small {rounds : Nat} {result : Int × List Chars} {spans : List (Nat × Nat)}
    (split : DelimSplit src delim vec result spans) (returned : strSplit rounds src delim vec = some result) :
    vec.length + (stretches (plain src delim) src.length).length < 2 ^ 31 := by
  have counted : result.2.length = vec.length + (stretches (plain src delim) src.length).length := by
    rw [split.appended, List.length_append, List.length_map, split.are.eq_stretches]
  have converted : result.1 = toInt result.2.length := by
    obtain ⟨state, -, rfl⟩ := Option.map_eq_some_iff.mp returned
    exact splitTail_fst src state
  rw [← counted]
  exact toInt_eq_iff.mp (converted.symm.trans split.size)

/-- `StrSplit` appends the maximal pieces without a delimiter in order, keeps the earlier
elements and returns the size of the vector just if that is less than `2^31`. -/
theorem strSplit_splits_iff (src : Chars) (delim : List Char) (vec : List Chars) :
    (∃ rounds result spans, strSplit rounds src delim vec = some result ∧
        DelimSplit src delim vec result spans) ↔
      vec.length + (stretches (plain src delim) src.length).length < 2 ^ 31 := by
  constructor
  · rintro ⟨rounds, result, spans, returned, split⟩
    exact split.small returned
  · intro small
    obtain ⟨rounds, result, returned, appended, converted⟩ := strSplit_eq src delim vec
    have are := areStretches (plain src delim) src.length
    refine ⟨rounds, result, _, returned, are, appended, ?_, ?_, ?_⟩
    · rintro ⟨low, high⟩ member char isChar
      have stretch := (are.complete low high).mp member
      obtain ⟨pos, lower, upper, rfl⟩ := mem_piece stretch.inside isChar
      simpa [plain] using stretch.kept pos lower upper
    · intro pos inside noDelim
      exact existsUnique_span _ inside (decide_eq_true noDelim)
    · rw [converted]
      apply toInt_of_lt
      rwa [appended, List.length_append, List.length_map]

/-- A vector of `2^31` strings: the size comes back negative, as `size_t` is narrowed to an int. -/
theorem size_comes_back_negative :
    (∃ rounds result, strSplit rounds [] ['.'] (List.replicate 2147483648 []) = some result ∧
        result.1 = -2147483648 ∧ result.2.length = 2147483648) ∧
      ¬ ∃ rounds result spans, strSplit rounds [] ['.'] (List.replicate 2147483648 []) = some result ∧
        DelimSplit [] ['.'] (List.replicate 2147483648 []) result spans := by
  constructor
  · obtain ⟨rounds, result, returned, appended, converted⟩ :=
      strSplit_eq [] ['.'] (List.replicate 2147483648 [])
    have counted : result.2.length = 2147483648 := by
      rw [appended, List.length_append, List.length_replicate]
      rfl
    refine ⟨rounds, result, returned, ?_, counted⟩
    rw [converted, counted, toInt_two_pow]
  · rintro ⟨rounds, result, spans, returned, split⟩
    have small := split.small returned
    rw [List.length_replicate] at small
    omega

/-! ### The pieces of the addresses

`makeAddr` and `GetMacAddr` were modelled over a scan of the characters. It is the same
function. -/

/-- The piece at the end is added when it is not empty, in the form of the loop over the characters. -/
theorem map_ended_eq {start : Nat} (reached : start ≤ pos) (within : pos ≤ src.length) :
    (ended start pos).map (piece src) =
      if piece src (start, pos) ≠ [] then [piece src (start, pos)] else [] := by
  have appended := map_ended src [] start pos reached
  rw [List.nil_append, List.nil_append] at appended
  have isEmpty : piece src (start, pos) ≠ [] ↔ pos ≠ start := by
    rw [Ne, piece, List.take_eq_nil_iff, List.drop_eq_nil_iff]
    omega
  rw [appended, if_congr isEmpty rfl rfl]
  rfl

/-- The loop of the source is the scan for stretches without delimiters, from any position on. -/
theorem strSplitFrom_eq_scan (src : Chars) (delim : List Char) (left start pos : Nat) (reached : start ≤ pos)
    (rest : pos + left = src.length) :
    strSplitFrom delim (piece src (start, pos)) (src.drop pos) =
      (scan (plain src delim) start pos left).map (piece src) := by
  induction left generalizing start pos with
  | zero =>
    rw [List.drop_eq_nil_of_le (by omega), strSplitFrom, scan, map_ended_eq reached (by omega)]
  | succ left inductionHypothesis =>
    have inside : pos < src.length := by omega
    have here : src.getD pos '\x00' = src[pos] := by
      rw [List.getD_eq_getElem?_getD, List.getElem?_eq_getElem inside, Option.getD_some]
    rw [List.drop_eq_getElem_cons inside, strSplitFrom]
    by_cases isDelim : src[pos] ∈ delim
    · rw [if_pos isDelim, scan_cut (plain_eq_false.mpr (here ▸ isDelim)), List.map_append,
        map_ended_eq reached (by omega), ← inductionHypothesis (pos + 1) (pos + 1) (Nat.le_refl _) (by omega),
        piece_self]
    · rw [if_neg isDelim, scan_kept (decide_eq_true (here ▸ isDelim)), ← piece_succ reached inside]
      exact inductionHypothesis start (pos + 1) (by omega) (by omega)

/-- The two models of `StrSplit` agree: that by positions, and that over characters which the
addresses use. -/
theorem strSplit_eq_pieces (src : Chars) (delim : List Char) :
    OpenTaker.strSplit src delim = (stretches (plain src delim) src.length).map (piece src) := by
  have scanned := strSplitFrom_eq_scan src delim src.length 0 0 (Nat.le_refl 0) (Nat.zero_add _)
  rwa [piece_self] at scanned

/-! ## Delimiter strings -/

section DelimiterString

variable {text : Chars}

/-- `find` gives the first position where the text stands, from the given one on. The empty text
stands everywhere, at the end as well. -/
theorem find_eq_some : find src text pos = some found ↔
    (pos ≤ found ∧ found ≤ src.length) ∧ text <+: src.drop found ∧
      ∀ earlier, pos ≤ earlier → earlier < found → ¬ text <+: src.drop earlier := by
  rw [find, List.find?_range'_eq_some, List.mem_range'_1]
  simp only [List.isPrefixOf_iff_prefix, Bool.not_eq_true', ← Bool.not_eq_true]
  constructor
  · rintro ⟨occurs, inside, first⟩
    exact ⟨by omega, occurs, first⟩
  · rintro ⟨inside, occurs, first⟩
    exact ⟨occurs, by omega, first⟩

/-- Where it gives none, the text stands nowhere from there on. -/
theorem find_eq_none : find src text pos = none ↔
    ∀ later, pos ≤ later → later ≤ src.length → ¬ text <+: src.drop later := by
  rw [find, List.find?_range'_eq_none]
  simp only [Bool.not_eq_true', ← Bool.not_eq_true, List.isPrefixOf_iff_prefix]
  constructor
  · exact fun absent later lower upper => absent later lower (by omega)
  · exact fun absent later lower upper => absent later lower (by omega)

/-- Nothing is found where the delimiter string does not occur. -/
theorem not_isInfix_of_find (nonempty : text ≠ []) (notFound : find src text pos = none) :
    ¬ text <:+: src.drop pos := by
  rw [isInfix_iff]
  rintro ⟨offset, occurs⟩
  rw [List.drop_drop] at occurs
  by_cases inside : pos + offset ≤ src.length
  · exact find_eq_none.mp notFound _ (Nat.le_add_right pos offset) inside occurs
  · rw [List.drop_eq_nil_of_le (by omega)] at occurs
    exact nonempty (List.prefix_nil.mp occurs)

/-- What is found is the leftmost occurrence from the position on. -/
theorem isLeftmost_of_find (search : find src text pos = some found) :
    IsLeftmost text (src.drop pos) (found - pos) := by
  obtain ⟨⟨ahead, -⟩, occurs, first⟩ := find_eq_some.mp search
  constructor
  · rwa [List.drop_drop, Nat.add_sub_cancel' ahead]
  · intro earlier before
    rw [List.drop_drop]
    exact first _ (Nat.le_add_right pos earlier) (by omega)

/-- The loop of `StrSplit_s` cuts the string at the delimiter string. -/
theorem splitLoop_find (nonempty : text ≠ []) (rounds pos : Nat) (vec : List Chars)
    (within : pos ≤ src.length) (enough : src.length - pos < rounds) :
    ∃ state parts, splitLoop (find src text) text.length src rounds pos vec = some state ∧
      Cuts text (src.drop pos) parts ∧ (splitTail src state).2 = vec ++ parts.filter (· ≠ []) := by
  have positive := List.length_pos_iff.mpr nonempty
  induction rounds generalizing pos vec with
  | zero => omega
  | succ rounds inductionHypothesis =>
    rw [splitLoop]
    cases search : find src text pos with
    | none =>
      refine ⟨(pos, vec), _, rfl, .whole _ (.inr (not_isInfix_of_find nonempty search)), ?_⟩
      rw [splitTail_snd within, map_ended src vec pos src.length within]
      by_cases atEnd : src.length = pos
      · simp [atEnd]
      · have notNil : src.drop pos ≠ [] := by
          rw [Ne, List.drop_eq_nil_iff]
          omega
        rw [if_pos atEnd, substr, List.take_of_length_le (by rw [List.length_drop])]
        simp [notNil]
    | some found =>
      have leftmost := isLeftmost_of_find search
      have ends := leftmost.bound nonempty
      have ahead := (find_eq_some.mp search).1.1
      rw [List.length_drop] at ends
      obtain ⟨state, parts, ran, cuts, appended⟩ := inductionHypothesis (found + text.length)
        (if found ≠ pos then vec ++ [substr src pos (found - pos)] else vec) (by omega) (by omega)
      refine ⟨state, _, ran, .cut _ _ parts nonempty leftmost ?_, ?_⟩
      · rwa [List.drop_drop, ← Nat.add_assoc, Nat.add_sub_cancel' ahead]
      · rw [appended, substr]
        by_cases same : found = pos
        · simp [same]
        · have notNil : (src.drop pos).take (found - pos) ≠ [] := by
            rw [Ne, List.take_eq_nil_iff, List.drop_eq_nil_iff]
            omega
          rw [if_pos same, List.filter_cons, if_pos (by simpa using notNil), List.append_assoc]
          rfl

/-- An empty delimiter string is found where the search begins. -/
theorem splitLoop_endless (src : Chars) (rounds : Nat) (vec : List Chars) :
    splitLoop (find src []) 0 src rounds 0 vec = none := by
  have search : find src [] 0 = some 0 := by
    rw [find_eq_some]
    exact ⟨⟨Nat.le_refl 0, Nat.zero_le _⟩, List.nil_prefix, fun _ _ => by omega⟩
  induction rounds with
  | zero => rfl
  | succ rounds inductionHypothesis =>
    rw [splitLoop, search]
    exact inductionHypothesis

/-- However the source is cut at the leftmost occurrences, these are the parts that the call appends. -/
theorem strSplit_s_eq_of_cuts {src delim : Chars} {parts : List Chars} (vec : List Chars)
    (nonempty : delim ≠ []) (cuts : Cuts delim src parts) :
    ∃ result, strSplit_s (src.length + 1) src delim vec = some result ∧
      result.2 = vec ++ parts.filter (· ≠ []) := by
  obtain ⟨state, found, ran, foundCuts, appended⟩ :=
    @splitLoop_find src delim nonempty (src.length + 1) 0 vec (Nat.zero_le _) (by omega)
  obtain rfl := cuts.unique foundCuts
  exact ⟨splitTail src state, by rw [strSplit_s, ran, Option.map_some], appended⟩

/-- What a call of `StrSplit_s` appends, the loop having ended. -/
structure SubstringSplit (src delim : Chars) (vec : List Chars) (result : Int × List Chars)
    (parts : List Chars) : Prop where
  cuts : Cuts delim src parts
  appended : result.2 = vec ++ parts.filter (· ≠ [])
  noDelim : delim ≠ [] → ∀ piece ∈ parts.filter (· ≠ []), ¬ delim <:+: piece

/-- `StrSplit_s` terminates, and appends the pieces that are not empty, just if the delimiter string
is not empty. The pieces are those between the leftmost occurrences. -/
theorem strSplit_s_cuts_iff (src delim : Chars) (vec : List Chars) :
    (∃ rounds result parts, strSplit_s rounds src delim vec = some result ∧
        SubstringSplit src delim vec result parts) ↔ delim ≠ [] := by
  constructor
  · rintro ⟨rounds, result, parts, returned, -⟩ rfl
    rw [strSplit_s, List.length_nil, splitLoop_endless] at returned
    cases returned
  · intro nonempty
    obtain ⟨state, parts, ran, cuts, appended⟩ :=
      @splitLoop_find src delim nonempty (src.length + 1) 0 vec (Nat.zero_le _) (by omega)
    refine ⟨src.length + 1, splitTail src state, parts, by rw [strSplit_s, ran, Option.map_some],
      cuts, appended, ?_⟩
    intro nonempty piece member
    exact cuts.not_isInfix nonempty piece (List.mem_of_mem_filter member)

/-- With an empty delimiter string the loop never ends: the empty text is found at every position,
and nothing is cut off. -/
theorem empty_delimiter_never_ends :
    ¬ ∃ rounds result parts, strSplit_s rounds ['a'] [] [] = some result ∧
      SubstringSplit ['a'] [] [] result parts := by
  rintro ⟨rounds, result, parts, returned, -⟩
  rw [strSplit_s, List.length_nil, splitLoop_endless] at returned
  cases returned

end DelimiterString

end CStdString

end OpenTaker
