import OpenTaker.StdStrings
import OpenTaker.InetAddrText
import OpenTaker.Stretches
import Mathlib.Data.List.DropRight

/-!
# Command lines

`Str2Argv` duplicates a command and cuts it in place: a blank that ends a word becomes a zero
character, and the start of the next word is stored in the array of the caller. The array has
a size, which is read before the first word only. One flag remembers whether a quote is open,
and every quote character of either kind turns it over.

The words of a command lie between runs of blanks outside of its quoted sections, and a
section ends at the character that opened it.
-/

namespace OpenTaker.CommandLines

open AddressText Stretches

/-! ## The buffer -/

/-- What a pointer points at. The buffer ends with a zero character. -/
def charAt (buf : Chars) (ptr : Nat) : Char := buf.getD ptr '\x00'

/-- The string at a pointer, up to its terminator; a buffer that ends is read as terminated there. -/
def stringAt (buf : Chars) (ptr : Nat) : Chars := (buf.drop ptr).takeWhile (· ≠ '\x00')

/-- `strdup`: a copy of the string with its terminator, in a buffer of its own. It is taken to
succeed. -/
def strdup (src : Chars) : Chars := src.takeWhile (· ≠ '\x00') ++ ['\x00']

/-- The loops that pass over characters of a kind. -/
def skip (ofKind : Char → Bool) (buf : Chars) (ptr : Nat) : Nat :=
  ptr + ((buf.drop ptr).takeWhile ofKind).length

/-- `while (end > _src && isspace_t(end[0])) end--;`, which stops at the first character of the text
at the latest. -/
def trimEnd (buf : Chars) (src : Nat) : Nat → Nat
  | 0 => 0
  | last + 1 => if src < last + 1 ∧ isSpace (charAt buf (last + 1)) then trimEnd buf src last else last + 1

/-- `StrTrim`: the buffer, and the pointer that is returned. -/
def strTrim (buf : Chars) (src : Nat) : Chars × Nat :=
  let src := skip isSpace buf src
  if charAt buf src = '\x00' then (buf, src)
  else (buf.set (trimEnd buf src (src + (stringAt buf src).length - 1) + 1) '\x00', src)

/-- A single or a double quote. The loop takes both for the same mark, so that either closes the
other. -/
def isQuote (char : Char) : Bool := char = '\x27' ∨ char = '\x22'

/-- `while (*buf)`: the buffer, and the pointers that have been stored. -/
def argvLoop : Nat → Chars → Nat → List Nat → Bool → Option (Chars × List Nat)
  | 0, _, _, _, _ => none
  | rounds + 1, tmp, buf, argv, hasQuote =>
      if charAt tmp buf = '\x00' then some (tmp, argv)
      else if charAt tmp buf = ' ' ∧ hasQuote = false then
        let tmp := tmp.set buf '\x00'
        let buf := skip (· = ' ') tmp (buf + 1)
        if charAt tmp buf = '\x00' then some (tmp, argv)
        else argvLoop rounds tmp (buf + 1) (argv ++ [buf]) (hasQuote != isQuote (charAt tmp buf))
      else argvLoop rounds tmp (buf + 1) argv (hasQuote != isQuote (charAt tmp buf))

/-- What a call leaves behind: the entries it has stored, as pointers into the copy, and how many it
has counted. -/
structure Argv where
  /-- The duplicated buffer, which is returned. -/
  buf : Option Chars
  /-- The pointers that are stored in `_argv`, one behind the other. -/
  argv : List Nat
  argc : Int
deriving DecidableEq

/-- `Str2Argv`, if the loop ends within so many rounds. -/
def str2Argv (rounds : Nat) (cmd : Option Chars) (argc : Int) : Option Argv :=
  match cmd with
  | none => some ⟨none, [], argc⟩
  | some cmd =>
      if argc < 1 then some ⟨none, [], argc⟩
      else
        let trimmed := strTrim (strdup cmd) 0
        (argvLoop rounds trimmed.1 trimmed.2 [trimmed.2] false).map fun (tmp, argv) =>
          ⟨some tmp, argv, toInt argv.length⟩

/-- The strings of `_argv`, read off the copy after the call is over. -/
def Argv.words (result : Argv) : List Chars := result.argv.map (stringAt (result.buf.getD []))

/-! ## Words -/

/-- The command without the spaces around it, which is the text that the loop then cuts into words. -/
def trimmed (cmd : Chars) : Chars :=
  ((cmd.takeWhile (· ≠ '\x00')).dropWhile isSpace).rdropWhile isSpace

/-- A quote character opens a section, and the same character closes it. -/
def quoteStep : Option Char → Char → Option Char
  | none, char => if isQuote char then some char else none
  | some quote, char => if char = quote then none else some quote

/-- The quote of the section that is open behind a text. -/
def openQuote (text : Chars) : Option Char := text.foldl quoteStep none

/-- The position belongs to a word: no blank is there, or it is in a quoted section. -/
def inWord (text : Chars) (pos : Nat) : Bool :=
  decide ¬ (text.getD pos '\x00' = ' ' ∧ openQuote (text.take pos) = none)

/-- The words of a command, as a shell would cut it at blanks outside of quotation marks. -/
def words (text : Chars) : List Chars := (stretches (inWord text) text.length).map (piece text)

example : words "ls 'a b' c".toList = ["ls".toList, "'a b'".toList, "c".toList] := by decide

/-- A call has stored the first words, as many as there is room for. -/
structure FirstWords (cmd : Chars) (capacity : Nat) (result : Argv) : Prop where
  bounded : result.argv.length ≤ capacity
  counted : result.argc = result.argv.length
  stored : result.words = (words (trimmed cmd)).take capacity

/-- Each blank is in a quoted section just if the number of quote characters before it is odd. -/
def QuotesMatch (text : Chars) : Prop :=
  ∀ pos < text.length, text.getD pos '\x00' = ' ' →
    (openQuote (text.take pos) = none ↔ (text.take pos).countP isQuote % 2 = 0)

/-! ## Strings in a buffer -/

section Buffer

variable {buf : Chars} {ptr : Nat}

/-- Inside of the buffer a character is read as it stands. Behind its end the terminator is read. -/
theorem charAt_eq (inside : ptr < buf.length) : charAt buf ptr = buf[ptr] := by
  rw [charAt, List.getD_eq_getElem?_getD, List.getElem?_eq_getElem inside, Option.getD_some]

/-- Reading behind a part in front is reading the rest, by which the pointers of the source become
positions in the text. -/
theorem charAt_append (before text : Chars) (pos : Nat) :
    charAt (before ++ text) (before.length + pos) = charAt text pos := by
  rw [charAt, charAt, List.getD_eq_getElem?_getD, List.getD_eq_getElem?_getD,
    List.getElem?_append_right (Nat.le_add_right _ _), Nat.add_sub_cancel_left]

/-- A character that was written inside of the buffer is read back from where it was written. -/
theorem charAt_set_self (inside : ptr < buf.length) (char : Char) : charAt (buf.set ptr char) ptr = char := by
  rw [charAt, List.getD_eq_getElem?_getD, List.getElem?_set_self inside, Option.getD_some]

/-- Writing one character leaves all others. The loop writes terminators into the copy of the text. -/
theorem charAt_set_of_ne {other : Nat} (distinct : other ≠ ptr) (char : Char) :
    charAt (buf.set ptr char) other = charAt buf other := by
  rw [charAt, charAt, List.getD_eq_getElem?_getD, List.getD_eq_getElem?_getD,
    List.getElem?_set_ne distinct.symm]

/-- A string that begins with the terminator is empty. -/
theorem stringAt_of_zero (ends : charAt buf ptr = '\x00') : stringAt buf ptr = [] := by
  by_cases inside : ptr < buf.length
  · rw [charAt_eq inside] at ends
    rw [stringAt, List.drop_eq_getElem_cons inside, ends]
    rfl
  · rw [stringAt, List.drop_eq_nil_of_le (by omega), List.takeWhile_nil]

/-- Any other string has a first character and the string behind it, the recursion by which strings
are read off the buffer. -/
theorem stringAt_of_ne_zero (goesOn : charAt buf ptr ≠ '\x00') :
    stringAt buf ptr = charAt buf ptr :: stringAt buf (ptr + 1) := by
  by_cases inside : ptr < buf.length
  · rw [charAt_eq inside] at goesOn ⊢
    rw [stringAt, List.drop_eq_getElem_cons inside, List.takeWhile_cons_of_pos (by simpa using goesOn),
      stringAt]
  · rw [charAt, List.getD_eq_getElem?_getD, List.getElem?_eq_none (by omega)] at goesOn
    exact absurd rfl goesOn

/-- A loop passes over so many characters of its kind and no more. -/
theorem skip_eq {ofKind : Char → Bool} (count : Nat) (inside : ptr + count < buf.length)
    (all : ∀ offset < count, ofKind (charAt buf (ptr + offset)) = true)
    (stops : ofKind (charAt buf (ptr + count)) = false) : skip ofKind buf ptr = ptr + count := by
  induction count generalizing ptr with
  | zero =>
    rw [Nat.add_zero] at inside stops
    rw [charAt_eq inside] at stops
    rw [skip, List.drop_eq_getElem_cons inside, List.takeWhile_cons_of_neg (by simp [stops]), List.length_nil]
  | succ count inductionHypothesis =>
    have first := all 0 (by omega)
    have rest : skip ofKind buf (ptr + 1) = ptr + 1 + count := by
      refine inductionHypothesis (by omega) (fun offset bound => ?_) ?_
      · rw [Nat.add_assoc, Nat.add_comm 1]
        exact all (offset + 1) (by omega)
      · rw [Nat.add_assoc, Nat.add_comm 1]
        exact stops
    rw [Nat.add_zero, charAt_eq (by omega)] at first
    rw [skip] at rest ⊢
    rw [List.drop_eq_getElem_cons (by omega), List.takeWhile_cons_of_pos first, List.length_cons]
    omega

/-- The spaces at the end are passed over, down to a character that is none. -/
theorem trimEnd_eq (src last count : Nat) (reached : src ≤ last)
    (spaces : ∀ offset < count, isSpace (charAt buf (last + 1 + offset)) = true)
    (stops : isSpace (charAt buf last) = false) : trimEnd buf src (last + count) = last := by
  induction count with
  | zero =>
    cases last with
    | zero => rfl
    | succ last => rw [Nat.add_zero, trimEnd, if_neg (by simp [stops])]
  | succ count inductionHypothesis =>
    have isSpaceHere := spaces count (by omega)
    rw [show last + 1 + count = last + count + 1 by omega] at isSpaceHere
    rw [show last + (count + 1) = last + count + 1 by omega, trimEnd,
      if_pos ⟨by omega, isSpaceHere⟩]
    exact inductionHypothesis fun offset bound => spaces offset (by omega)

/-- The string of a buffer up to its zero character. -/
theorem stringAt_append (before text behind : Chars) (noZero : '\x00' ∉ text) :
    stringAt (before ++ (text ++ '\x00' :: behind)) before.length = text := by
  rw [stringAt, List.drop_left, List.takeWhile_append_of_pos, List.takeWhile_cons_of_neg (by decide),
    List.append_nil]
  exact fun char isChar => decide_eq_true fun isZero => noZero (isZero ▸ isChar)

/-- The zero character is put behind the last character that is no space. -/
theorem cut_trimmed (before core behind : Chars) (noZero : '\x00' ∉ core ++ behind) (notNil : core ≠ [])
    (lastNot : isSpace (core.getLast notNil) = false) (spaces : ∀ char ∈ behind, isSpace char = true)
    (buf : Chars) (isBuf : buf = before ++ (core ++ behind ++ ['\x00'])) :
    ∃ rest, buf.set (trimEnd buf before.length (before.length + (stringAt buf before.length).length - 1) + 1)
        '\x00' = before ++ (core ++ '\x00' :: rest) := by
  have positive := List.length_pos_iff.mpr notNil
  have grouped : buf = (before ++ core) ++ (behind ++ ['\x00']) := by
    rw [isBuf, List.append_assoc, List.append_assoc]
  have length : (stringAt buf before.length).length = core.length + behind.length := by
    rw [isBuf, stringAt_append before (core ++ behind) [] noZero, List.length_append]
  have spacesAt : ∀ offset < behind.length,
      isSpace (charAt buf (before.length + (core.length - 1) + 1 + offset)) = true := by
    intro offset bound
    rw [show before.length + (core.length - 1) + 1 + offset = (before ++ core).length + offset by
      rw [List.length_append]; omega, grouped, charAt_append, charAt_eq (by simp; omega),
      List.getElem_append_left bound]
    exact spaces _ (List.getElem_mem bound)
  have stops : isSpace (charAt buf (before.length + (core.length - 1))) = false := by
    rw [isBuf, charAt_append, charAt_eq (by simp; omega), List.getElem_append_left (by simp; omega),
      List.getElem_append_left (by omega), ← List.getLast_eq_getElem notNil]
    exact lastNot
  rw [length, show before.length + (core.length + behind.length) - 1 =
      before.length + (core.length - 1) + behind.length by omega,
    trimEnd_eq before.length _ behind.length (Nat.le_add_right _ _) spacesAt stops,
    show before.length + (core.length - 1) + 1 = (before ++ core).length by
      rw [List.length_append]; omega, grouped, List.set_append_right _ _ (Nat.le_refl _), Nat.sub_self]
  cases behind with
  | nil => exact ⟨[], List.append_assoc _ _ _⟩
  | cons char rest => exact ⟨rest ++ ['\x00'], List.append_assoc _ _ _⟩

/-- `StrTrim` returns a pointer to the command without the spaces around it. -/
theorem strTrim_eq (cmd : Chars) :
    ∃ before behind, strTrim (strdup cmd) 0 = (before ++ (trimmed cmd ++ '\x00' :: behind), before.length) := by
  have noZero : '\x00' ∉ cmd.takeWhile (· ≠ '\x00') := by
    intro member
    simpa using List.mem_takeWhile_imp member
  rw [strdup, trimmed]
  generalize cmd.takeWhile (· ≠ '\x00') = src at noZero
  have parts : src.takeWhile isSpace ++ src.dropWhile isSpace = src := List.takeWhile_append_dropWhile
  have spaces : ∀ char ∈ src.takeWhile isSpace, isSpace char = true := fun char => List.mem_takeWhile_imp
  have head : ∀ char ∈ (src.dropWhile isSpace).head?, isSpace char = false := by
    intro char isHead
    have failed := List.head?_dropWhile_not isSpace src
    rw [Option.mem_def.mp isHead] at failed
    simpa using failed
  generalize src.takeWhile isSpace = before at parts spaces
  generalize src.dropWhile isSpace = body at parts head
  subst parts
  rw [List.append_assoc]
  have skipped : skip isSpace (before ++ (body ++ ['\x00'])) 0 = before.length := by
    have stops : (body ++ ['\x00']).takeWhile isSpace = [] := by
      cases body with
      | nil => rw [List.nil_append, List.takeWhile_cons_of_neg (by decide)]
      | cons char rest =>
        rw [List.cons_append, List.takeWhile_cons_of_neg (by simp [head char rfl])]
    rw [skip, List.drop_zero, List.takeWhile_append_of_pos spaces, stops, List.append_nil, Nat.zero_add]
  rw [strTrim, skipped]
  cases body with
  | nil =>
    refine ⟨before, [], if_pos ?_⟩
    exact charAt_append before ['\x00'] 0
  | cons char rest =>
    have body : (char :: rest).rdropWhile isSpace ++ (char :: rest).rtakeWhile isSpace = char :: rest :=
      List.rdropWhile_append_rtakeWhile
    have notNil : (char :: rest).rdropWhile isSpace ≠ [] := by
      rw [Ne, List.rdropWhile_eq_nil_iff]
      intro all
      have isSpaceHere := all char (List.mem_cons_self)
      rw [head char rfl] at isSpaceHere
      cases isSpaceHere
    have lastNot := List.rdropWhile_last_not isSpace (char :: rest) notNil
    have noZeroHere : '\x00' ∉ char :: rest := fun member => noZero (List.mem_append_right _ member)
    obtain ⟨after, cut⟩ := cut_trimmed before _ _ (body.symm ▸ noZeroHere) notNil
      (by simpa using lastNot) (fun _ member => List.mem_rtakeWhile_imp member) _ rfl
    rw [body] at cut
    refine ⟨before, after, ?_⟩
    rw [if_neg, cut]
    rw [← Nat.add_zero before.length, charAt_append]
    exact fun isZero => noZeroHere (isZero ▸ List.mem_cons_self)

end Buffer

/-! ## The loop -/

section Rounds

variable {rounds : Nat} {tmp : Chars} {buf next : Nat} {argv : List Nat} {hasQuote : Bool}

/-- The loop ends at the terminator with the entries it has by then, whatever quotation is open. -/
theorem argvLoop_end (ends : charAt tmp buf = '\x00') :
    argvLoop (rounds + 1) tmp buf argv hasQuote = some (tmp, argv) := by
  rw [argvLoop, if_pos ends]

/-- A character that ends no argument is passed over. A quotation mark changes only whether blanks
cut from there on. -/
theorem argvLoop_pass (goesOn : charAt tmp buf ≠ '\x00')
    (passes : ¬ (charAt tmp buf = ' ' ∧ hasQuote = false)) :
    argvLoop (rounds + 1) tmp buf argv hasQuote =
      argvLoop rounds tmp (buf + 1) argv (hasQuote != isQuote (charAt tmp buf)) := by
  rw [argvLoop, if_neg goesOn, if_neg passes]

/-- A cut with nothing but blanks behind it ends the loop: no word begins there, and the words are
those found so far. -/
theorem argvLoop_last (blank : charAt tmp buf = ' ')
    (skipped : skip (· = ' ') (tmp.set buf '\x00') (buf + 1) = next)
    (ends : charAt (tmp.set buf '\x00') next = '\x00') :
    argvLoop (rounds + 1) tmp buf argv false = some (tmp.set buf '\x00', argv) := by
  rw [argvLoop, if_neg (by rw [blank]; decide), if_pos ⟨blank, rfl⟩]
  simp only [skipped, ends, ↓reduceIte]

/-- A cut in front of another word begins this word: its start is stored in `_argv`, and the loop
goes on behind its first character. -/
theorem argvLoop_next (blank : charAt tmp buf = ' ')
    (skipped : skip (· = ' ') (tmp.set buf '\x00') (buf + 1) = next)
    (goesOn : charAt (tmp.set buf '\x00') next ≠ '\x00') :
    argvLoop (rounds + 1) tmp buf argv false =
      argvLoop rounds (tmp.set buf '\x00') (next + 1) (argv ++ [next])
        (isQuote (charAt (tmp.set buf '\x00') next)) := by
  rw [argvLoop, if_neg (by rw [blank]; decide), if_pos ⟨blank, rfl⟩]
  simp only [skipped, goesOn, ↓reduceIte, Bool.false_bne]

end Rounds

/-- An odd number of quote characters stands before the position. -/
def oddQuotes (text : Chars) (pos : Nat) : Bool := decide ((text.take pos).countP isQuote % 2 = 1)

/-- The loop does not cut at the position: there is no blank there, or an odd number of quote
characters stands in front. -/
def inArg (text : Chars) (pos : Nat) : Bool := decide ¬ (charAt text pos = ' ' ∧ oddQuotes text pos = false)

/-- The parity of the quotation marks in front of a position is what the flag of the loop is there. -/
theorem oddQuotes_succ {text : Chars} {pos : Nat} (inside : pos < text.length) :
    oddQuotes text (pos + 1) = (oddQuotes text pos != isQuote (charAt text pos)) := by
  rw [oddQuotes, oddQuotes, List.take_add_one, List.getElem?_eq_getElem inside, Option.toList_some,
    List.countP_append, List.countP_singleton, charAt_eq inside]
  cases isQuote text[pos] with
  | true =>
    rw [if_pos rfl, Bool.bne_true, ← decide_not, decide_eq_decide]
    omega
  | false => rw [if_neg (by decide), Nat.add_zero, Bool.bne_false]

/-- A position is outside of the arguments just if it has a blank and no quotation is open. -/
theorem inArg_eq_false {text : Chars} {pos : Nat} :
    inArg text pos = false ↔ charAt text pos = ' ' ∧ oddQuotes text pos = false := by
  simp [inArg]

/-- The negation, in the form in which the loop tests it. -/
theorem inArg_eq_true {text : Chars} {pos : Nat} :
    inArg text pos = true ↔ ¬ (charAt text pos = ' ' ∧ oddQuotes text pos = false) := by
  rw [inArg, decide_eq_true_iff]

/-- From `start` on the text stands in the buffer, with a zero character behind it. -/
structure Holds (tmp text : Chars) (base start : Nat) : Prop where
  long : base + text.length < tmp.length
  chars : ∀ pos, start ≤ pos → pos ≤ text.length → charAt tmp (base + pos) = charAt text pos

namespace Holds

variable {tmp text : Chars} {base start pos : Nat}

/-- What holds of the buffer from a position on holds from every later one, as the loop never looks
back. -/
theorem behind (holds : Holds tmp text base start) (later : start ≤ pos) : Holds tmp text base pos :=
  ⟨holds.long, fun other lower upper => holds.chars other (later.trans lower) upper⟩

/-- A cut leaves alone what stands behind it, so that the rest of the text is still there to be
read. -/
theorem cut (holds : Holds tmp text base start) (here : start ≤ pos) :
    Holds (tmp.set (base + pos) '\x00') text base (pos + 1) where
  long := by
    rw [List.length_set]
    exact holds.long
  chars other lower upper := by
    rw [charAt_set_of_ne (by omega)]
    exact holds.chars other (by omega) upper

/-- The blanks behind a position are passed over, and the next word begins at the first character
that is none. -/
theorem skip_blanks (holds : Holds tmp text base start) (later : start ≤ pos) (count : Nat)
    (bound : pos + count ≤ text.length) (blanks : ∀ offset < count, charAt text (pos + offset) = ' ')
    (stops : charAt text (pos + count) ≠ ' ') : skip (· = ' ') tmp (base + pos) = base + (pos + count) := by
  rw [← Nat.add_assoc]
  apply skip_eq count
  · have long := holds.long
    omega
  · intro offset before
    rw [Nat.add_assoc, holds.chars _ (by omega) (by omega), blanks offset before]
    rfl
  · rw [Nat.add_assoc, holds.chars _ (by omega) bound]
    exact decide_eq_false stops

end Holds

/-- The first position behind the text has the terminator. -/
theorem charAt_end (text : Chars) : charAt text text.length = '\x00' := by
  rw [charAt, List.getD_eq_getElem?_getD, List.getElem?_eq_none (Nat.le_refl _), Option.getD_none]

/-- Inside of a text without terminators the loop meets none, so that it goes on to the end. -/
theorem charAt_ne_zero {text : Chars} {pos : Nat} (noZero : '\x00' ∉ text) (inside : pos < text.length) :
    charAt text pos ≠ '\x00' := by
  rw [charAt_eq inside]
  exact fun isZero => noZero (isZero ▸ List.getElem_mem inside)

/-- A zero character behind a piece of the text makes it a string. -/
theorem stringAt_eq_piece {tmp text : Chars} {base : Nat} (noZero : '\x00' ∉ text) (count start : Nat)
    (inside : start + count ≤ text.length)
    (chars : ∀ pos, start ≤ pos → pos < start + count → charAt tmp (base + pos) = charAt text pos)
    (ends : charAt tmp (base + (start + count)) = '\x00') :
    stringAt tmp (base + start) = piece text (start, start + count) := by
  induction count generalizing start with
  | zero =>
    rw [Nat.add_zero] at ends
    rw [Nat.add_zero, piece_self, stringAt_of_zero ends]
  | succ count inductionHypothesis =>
    have here := chars start (Nat.le_refl _) (by omega)
    have rest := inductionHypothesis (start + 1) (by omega)
      (fun pos lower upper => chars pos (by omega) (by omega))
      (by rwa [show start + 1 + count = start + (count + 1) by omega])
    rw [stringAt_of_ne_zero (here ▸ charAt_ne_zero noZero (by omega)), here, Nat.add_assoc, rest, piece, piece,
      charAt_eq (by omega)]
    simp only [show start + (count + 1) - start = count + 1 by omega,
      show start + 1 + count - (start + 1) = count by omega]
    rw [List.drop_eq_getElem_cons (by omega : start < text.length), List.take_succ_cons]

/-- A run of blanks ends before the end of the text or there. -/
theorem exists_blanks (text : Chars) (left pos : Nat) (within : pos + left = text.length) :
    ∃ count, pos + count ≤ text.length ∧ (∀ offset < count, charAt text (pos + offset) = ' ') ∧
      charAt text (pos + count) ≠ ' ' := by
  induction left generalizing pos with
  | zero =>
    refine ⟨0, by omega, by omega, ?_⟩
    rw [within, charAt_end]
    decide
  | succ left inductionHypothesis =>
    by_cases blank : charAt text pos = ' '
    · obtain ⟨count, inside, blanks, stops⟩ := inductionHypothesis (pos + 1) (by omega)
      refine ⟨count + 1, by omega, ?_, by rwa [show pos + (count + 1) = pos + 1 + count by omega]⟩
      intro offset bound
      cases offset with
      | zero => exact blank
      | succ offset =>
        rw [show pos + (offset + 1) = pos + 1 + offset by omega]
        exact blanks offset (by omega)
    · exact ⟨0, by omega, by omega, blank⟩

/-- Blanks leave the flag as it is, for only a quote character changes it. -/
theorem oddQuotes_blanks {text : Chars} {pos : Nat} (count : Nat) (inside : pos + count ≤ text.length)
    (blanks : ∀ offset < count, charAt text (pos + offset) = ' ') :
    oddQuotes text (pos + count) = oddQuotes text pos := by
  induction count with
  | zero => rfl
  | succ count inductionHypothesis =>
    rw [← Nat.add_assoc, oddQuotes_succ (by omega), blanks count (by omega),
      inductionHypothesis (by omega) fun offset bound => blanks offset (by omega)]
    exact Bool.bne_false _

/-- Behind a blank that cuts, no quotation is open, so that each argument starts with the flag
cleared. -/
theorem oddQuotes_behind_cut {text : Chars} {pos : Nat} (cuts : inArg text pos = false)
    (inside : pos < text.length) : oddQuotes text (pos + 1) = false := by
  obtain ⟨blank, even⟩ := inArg_eq_false.mp cuts
  rw [oddQuotes_succ inside, even, blank]
  decide

/-- Behind the first character of the next word only that character counts. -/
theorem oddQuotes_next {text : Chars} {pos : Nat} (cuts : inArg text pos = false) (count : Nat)
    (inside : pos + 1 + count < text.length) (blanks : ∀ offset < count, charAt text (pos + 1 + offset) = ' ') :
    oddQuotes text (pos + 1 + count + 1) = isQuote (charAt text (pos + 1 + count)) := by
  rw [oddQuotes_succ inside, oddQuotes_blanks count (Nat.le_of_lt inside) blanks,
    oddQuotes_behind_cut cuts (by omega), Bool.false_bne]

/-- Behind a cut the scan goes on at the next character that is no blank. -/
theorem scan_inArg {text : Chars} {start pos count : Nat} (begun : start < pos)
    (cuts : inArg text pos = false) (inside : pos + 1 + count ≤ text.length)
    (blanks : ∀ offset < count, charAt text (pos + 1 + offset) = ' ') :
    scan (inArg text) start pos (text.length - pos) =
      (start, pos) ::
        scan (inArg text) (pos + 1 + count) (pos + 1 + count) (text.length - (pos + 1 + count)) := by
  have evenBehind := oddQuotes_behind_cut cuts (by omega)
  have separates : ∀ offset < count, inArg text (pos + 1 + offset) = false := by
    intro offset bound
    refine inArg_eq_false.mpr ⟨blanks offset bound, ?_⟩
    rw [oddQuotes_blanks offset (by omega) fun earlier before => blanks earlier (by omega), evenBehind]
  have skipped := @scan_skip_cut (inArg text) (pos + 1) (text.length - (pos + 1 + count)) count separates
  rw [show text.length - pos = count + (text.length - (pos + 1 + count)) + 1 by omega, scan_cut cuts,
    ended, if_pos begun, skipped, List.singleton_append]

/-- A word that is cut off is a string, whatever is written behind the cut. -/
theorem Holds.closes {tmp text : Chars} {base start pos : Nat} (holds : Holds tmp text base start)
    (noZero : '\x00' ∉ text) (reached : start ≤ pos) (inside : pos < text.length) (final : Chars)
    (frame : ∀ ptr < base + (pos + 1), charAt final ptr = charAt (tmp.set (base + pos) '\x00') ptr) :
    stringAt final (base + start) = piece text (start, pos) := by
  have long := holds.long
  have isString := @stringAt_eq_piece final text base noZero (pos - start) start (by omega)
  rw [Nat.add_sub_cancel' reached] at isString
  apply isString
  · intro other lower upper
    rw [frame _ (by omega), charAt_set_of_ne (by omega), holds.chars other lower (by omega)]
  · rw [frame _ (by omega), charAt_set_self (by omega)]

/-- The last word ends with the text: no cut was made behind it, and the zero byte of the text is
its end. -/
theorem Holds.ends {tmp text : Chars} {base start : Nat} (holds : Holds tmp text base start)
    (noZero : '\x00' ∉ text) (reached : start ≤ text.length) :
    stringAt tmp (base + start) = piece text (start, text.length) := by
  have zero := holds.chars text.length reached (Nat.le_refl _)
  rw [charAt_end] at zero
  have isString := @stringAt_eq_piece tmp text base noZero (text.length - start) start (by omega)
  rw [Nat.add_sub_cancel' reached] at isString
  exact isString (fun other lower _ => holds.chars other lower (by omega)) zero

/-- From within a word, the loop stores the starts of the words behind it, and cuts behind
each of them. What stands before the word is left alone. -/
theorem argvLoop_eq {text : Chars} (noZero : '\x00' ∉ text) (base rounds start pos : Nat) (tmp : Chars)
    (argv : List Nat) (holds : Holds tmp text base start) (reached : start ≤ pos)
    (within : pos ≤ text.length) (begun : start < pos ∨ pos < text.length ∧ inArg text pos = true)
    (enough : text.length - pos < rounds) :
    ∃ final ptrs, argvLoop rounds tmp (base + pos) argv (oddQuotes text pos) = some (final, argv ++ ptrs) ∧
      (∀ ptr < base + start, charAt final ptr = charAt tmp ptr) ∧
      ((base + start) :: ptrs).map (stringAt final) =
        (scan (inArg text) start pos (text.length - pos)).map (piece text) := by
  induction rounds generalizing start pos tmp argv with
  | zero => omega
  | succ rounds inductionHypothesis =>
    have here := holds.chars pos reached within
    by_cases atEnd : pos = text.length
    · subst atEnd
      rw [charAt_end] at here
      have later : start < text.length := by omega
      refine ⟨tmp, [], by rw [argvLoop_end here, List.append_nil], fun _ _ => rfl, ?_⟩
      rw [Nat.sub_self, scan, ended, if_pos later, List.map_singleton, List.map_singleton,
        holds.ends noZero reached]
    · have inside : pos < text.length := by omega
      have goesOn : charAt tmp (base + pos) ≠ '\x00' := here ▸ charAt_ne_zero noZero inside
      cases kept : inArg text pos with
      | true =>
        obtain ⟨final, ptrs, ran, frame, strings⟩ := inductionHypothesis start (pos + 1) tmp argv holds
          (by omega) inside (.inl (by omega)) (by omega)
        refine ⟨final, ptrs, ?_, frame, ?_⟩
        · rw [argvLoop_pass goesOn (by rw [here]; exact inArg_eq_true.mp kept), here, ← oddQuotes_succ inside]
          exact ran
        · rw [strings, show text.length - pos = text.length - (pos + 1) + 1 by omega, scan_kept kept]
      | false =>
        have later : start < pos := begun.resolve_right (by simp [kept])
        obtain ⟨blank, even⟩ := inArg_eq_false.mp kept
        have blankHere := here.trans blank
        obtain ⟨count, bound, blanks, stops⟩ :=
          exists_blanks text (text.length - (pos + 1)) (pos + 1) (by omega)
        have holdsBehind := holds.cut reached
        have skipped := holdsBehind.skip_blanks (Nat.le_refl _) count bound blanks stops
        have next := holdsBehind.chars (pos + 1 + count) (by omega) bound
        have closes := holds.closes noZero reached inside
        rw [even, scan_inArg later kept bound blanks]
        by_cases last : pos + 1 + count = text.length
        · rw [last, charAt_end] at next
          rw [last] at skipped ⊢
          refine ⟨_, [], by rw [argvLoop_last blankHere skipped next, List.append_nil], ?_, ?_⟩
          · exact fun ptr before => charAt_set_of_ne (by omega) _
          · rw [Nat.sub_self, scan, ended_self, List.map_singleton, List.map_singleton, closes _ fun _ _ => rfl]
        · -- The next word begins at the first character that is no blank.
          have inNext : pos + 1 + count < text.length := by omega
          have keptNext : inArg text (pos + 1 + count) = true := inArg_eq_true.mpr fun isCut => stops isCut.1
          have flag := oddQuotes_next kept count inNext blanks
          obtain ⟨final, ptrs, ran, frame, strings⟩ := inductionHypothesis (pos + 1 + count)
            (pos + 1 + count + 1) (tmp.set (base + pos) '\x00') (argv ++ [base + (pos + 1 + count)])
            (holdsBehind.behind (by omega)) (by omega) inNext (.inl (by omega)) (by omega)
          refine ⟨final, (base + (pos + 1 + count)) :: ptrs, ?_, ?_, ?_⟩
          · rw [argvLoop_next blankHere skipped (next ▸ charAt_ne_zero noZero inNext), next, ← flag,
              List.append_cons argv _ ptrs]
            exact ran
          · intro ptr before
            rw [frame ptr (by omega), charAt_set_of_ne (by omega)]
          · rw [List.map_cons, strings, closes final fun ptr before => frame ptr (by omega),
              show text.length - (pos + 1 + count) = text.length - (pos + 1 + count + 1) + 1 by omega,
              scan_kept keptNext, List.map_cons]

/-- The loop that ends has one result, however many rounds it is given, so that the fuel does not
decide about the words. -/
theorem argvLoop_unique (rounds others : Nat) {tmp : Chars} {buf : Nat} {argv : List Nat} {hasQuote : Bool}
    {first second : Chars × List Nat} (ran : argvLoop rounds tmp buf argv hasQuote = some first)
    (again : argvLoop others tmp buf argv hasQuote = some second) : first = second := by
  induction rounds generalizing others tmp buf argv hasQuote with
  | zero => cases ran
  | succ rounds inductionHypothesis =>
    cases others with
    | zero => cases again
    | succ others =>
      rw [argvLoop] at ran again
      split at ran
      · rw [if_pos ‹_›] at again
        exact Option.some.inj (ran.symm.trans again)
      · rw [if_neg ‹_›] at again
        split at ran
        · rw [if_pos ‹_›] at again
          simp only at ran again
          split at ran
          · rw [if_pos ‹_›] at again
            exact Option.some.inj (ran.symm.trans again)
          · rw [if_neg ‹_›] at again
            exact inductionHypothesis others ran again
        · rw [if_neg ‹_›] at again
          exact inductionHypothesis others ran again

/-- The words that the loop cuts a command into. -/
def args (text : Chars) : List Chars := (stretches (inArg text) text.length).map (piece text)

/-- What is trimmed from a command is a C string, so that it has no terminator inside. -/
theorem not_mem_trimmed (cmd : Chars) : '\x00' ∉ trimmed cmd := by
  intro member
  have inCmd := (List.dropWhile_sublist _).subset (List.rdropWhile_prefix _ _ |>.subset member)
  simpa using List.mem_takeWhile_imp inCmd

/-- A command that is not blank does not begin with a blank. -/
theorem trimmed_head {cmd : Chars} (notBlank : trimmed cmd ≠ []) : charAt (trimmed cmd) 0 ≠ ' ' := by
  rw [trimmed] at notBlank ⊢
  generalize cmd.takeWhile (· ≠ '\x00') = src at notBlank ⊢
  have trimmedPrefix := List.rdropWhile_prefix isSpace (src.dropWhile isSpace)
  generalize (src.dropWhile isSpace).rdropWhile isSpace = core at notBlank trimmedPrefix ⊢
  obtain ⟨rest, whole⟩ := trimmedPrefix
  cases core with
  | nil => exact absurd rfl notBlank
  | cons char core =>
    have failed := List.head?_dropWhile_not isSpace src
    rw [← whole] at failed
    intro blank
    rw [show char = ' ' from blank] at failed
    cases failed

/-- The copy of the text begins where it was put, and nothing has been written there yet. -/
theorem holds_append (before text behind : Chars) :
    Holds (before ++ (text ++ '\x00' :: behind)) text before.length 0 where
  long := by
    simp only [List.length_append, List.length_cons]
    omega
  chars pos _ within := by
    rw [charAt_append]
    by_cases atEnd : pos = text.length
    · rw [atEnd, charAt_end, ← Nat.add_zero text.length, charAt_append]
      rfl
    · rw [charAt_eq (by simp; omega), charAt_eq (by omega), List.getElem_append_left (by omega)]

/-- What a call stores, in terms of the arguments that the loop finds in the trimmed text. -/
theorem str2Argv_eq (cmd : Chars) (capacity : Nat) (positive : 1 ≤ capacity) :
    ∃ rounds result, str2Argv rounds (some cmd) capacity = some result ∧
      result.argc = toInt result.argv.length ∧
      result.words = if trimmed cmd = [] then [[]] else args (trimmed cmd) := by
  obtain ⟨before, behind, isTrimmed⟩ := strTrim_eq cmd
  have holds := holds_append before (trimmed cmd) behind
  have noZero := not_mem_trimmed cmd
  have roomy : ¬ (capacity : Int) < 1 := by omega
  simp only [str2Argv, if_neg roomy, isTrimmed]
  by_cases blank : trimmed cmd = []
  · have ends := holds.chars 0 (Nat.le_refl 0) (Nat.zero_le _)
    rw [blank, Nat.add_zero] at ends
    refine ⟨1, _, by rw [blank, argvLoop_end ends]; rfl, rfl, ?_⟩
    rw [if_pos blank]
    simp only [Argv.words, Option.getD_some, List.map_singleton, stringAt_of_zero ends]
  · have begins := List.length_pos_iff.mpr blank
    have kept : inArg (trimmed cmd) 0 = true := inArg_eq_true.mpr fun isCut => trimmed_head blank isCut.1
    obtain ⟨final, ptrs, ran, -, strings⟩ := argvLoop_eq noZero before.length ((trimmed cmd).length + 1) 0 0 _
      [before.length] holds (Nat.le_refl 0) (Nat.zero_le _) (.inr ⟨begins, kept⟩) (by omega)
    refine ⟨(trimmed cmd).length + 1,
      ⟨some final, before.length :: ptrs, toInt (before.length :: ptrs).length⟩, ?_, rfl, ?_⟩
    · exact congrArg (Option.map _) ran
    · rw [if_neg blank]
      exact strings

/-! ## When the words are right -/

/-- The state of the quotation takes one character more at the end: the form that the words are cut
by. -/
theorem openQuote_append (text : Chars) (char : Char) :
    openQuote (text ++ [char]) = quoteStep (openQuote text) char := by
  rw [openQuote, List.foldl_append]
  rfl

/-- Only a quote character opens a section, and the section remembers which of the two it was. -/
theorem isQuote_of_open {text : Chars} {quote : Char} (opened : openQuote text = some quote) :
    isQuote quote = true := by
  induction text using List.reverseRecOn with
  | nil => cases opened
  | append_singleton text char inductionHypothesis =>
    rw [openQuote_append] at opened
    cases before : openQuote text with
    | none =>
      rw [before, quoteStep] at opened
      by_cases quotes : isQuote char = true
      · rw [if_pos quotes] at opened
        exact Option.some.inj opened ▸ quotes
      · rw [if_neg quotes] at opened
        cases opened
    | some other =>
      rw [before, quoteStep] at opened
      by_cases closes : char = other
      · rw [if_pos closes] at opened
        cases opened
      · rw [if_neg closes] at opened
        exact inductionHypothesis (before.trans opened)

/-- A blank neither opens nor closes a section: what is open in front of it is open behind it. -/
theorem openQuote_blank (text : Chars) : openQuote (text ++ [' ']) = openQuote text := by
  rw [openQuote_append]
  cases opened : openQuote text with
  | none => rfl
  | some quote =>
    have notBlank : ' ' ≠ quote := by
      rintro rfl
      have impossible := isQuote_of_open opened
      revert impossible
      decide
    exact if_neg notBlank

/-- The loop and the words differ first behind a character that belongs to a word. -/
theorem apart_inArg_inWord (text : Chars) : Apart (inArg text) (inWord text) := by
  intro pos differ
  have blank : charAt text pos = ' ' := by
    by_contra other
    apply differ
    rw [inArg, inWord, decide_eq_decide]
    exact ⟨fun _ isCut => other isCut.1, fun _ isCut => other isCut.1⟩
  have positive : 0 < pos := by
    by_contra first
    obtain rfl : pos = 0 := by omega
    apply differ
    rw [inArg, inWord, decide_eq_decide]
    exact ⟨fun kept isCut => kept ⟨blank, rfl⟩, fun kept isCut => kept ⟨blank, rfl⟩⟩
  refine ⟨positive, fun agree => ?_⟩
  by_contra cut
  have cutByLoop := (Bool.not_eq_true _).mp cut
  obtain ⟨blankBefore, even⟩ := inArg_eq_false.mp cutByLoop
  have closed : openQuote (text.take (pos - 1)) = none := by
    rw [cutByLoop] at agree
    have notInWord := of_decide_eq_false agree.symm
    rw [not_not] at notInWord
    exact notInWord.2
  have inside : pos - 1 < text.length := by
    by_contra outside
    rw [charAt, List.getD_eq_getElem?_getD, List.getElem?_eq_none (by omega)] at blankBefore
    cases blankBefore
  -- Both leave the flag and the section as they are at the blank before.
  have evenHere : oddQuotes text pos = false := by
    have unchanged := oddQuotes_blanks 1 (show pos - 1 + 1 ≤ text.length by omega) fun offset bound => by
      rwa [show pos - 1 + offset = pos - 1 by omega]
    rwa [Nat.sub_add_cancel positive, even] at unchanged
  have closedHere : openQuote (text.take pos) = none := by
    rw [← Nat.sub_add_cancel positive, List.take_add_one, List.getElem?_eq_getElem inside, Option.toList_some,
      ← charAt_eq inside, blankBefore, openQuote_blank, closed]
  apply differ
  rw [inArg_eq_false.mpr ⟨blank, evenHere⟩]
  exact (decide_eq_false (not_not.mpr ⟨blank, closedHere⟩)).symm

/-- The loop cuts at the right blanks just if the parity of all quote characters agrees with the
sections everywhere in the text. -/
theorem quotesMatch_iff (text : Chars) :
    QuotesMatch text ↔ ∀ pos < text.length, inArg text pos = inWord text pos := by
  have even : ∀ pos, oddQuotes text pos = false ↔ (text.take pos).countP isQuote % 2 = 0 := by
    intro pos
    rw [oddQuotes, decide_eq_false_iff_not]
    omega
  constructor
  · intro quotes pos inside
    rw [inArg, inWord, decide_eq_decide, not_iff_not]
    exact and_congr_right fun blank => (even pos).trans (quotes pos inside blank).symm
  · intro same pos inside blank
    have agree := same pos inside
    rw [inArg, inWord, decide_eq_decide, not_iff_not] at agree
    rw [← even pos]
    exact ⟨fun closed => (agree.mpr ⟨blank, closed⟩).2, fun isEven => (agree.mp ⟨blank, isEven⟩).2⟩

/-- Where quotation marks match, the arguments that the loop finds are the words of the text, in
their order. -/
theorem args_eq_words {text : Chars} (quotes : QuotesMatch text) : args text = words text := by
  have same := (quotesMatch_iff text).mp quotes
  rw [args, words, stretches, stretches, scan_congr fun offset bound => same _ (by omega)]

/-- A call has one result: more rounds than it needs give the same one. -/
theorem str2Argv_unique {rounds others : Nat} {cmd : Chars} {capacity : Int} {first second : Argv}
    (returned : str2Argv rounds (some cmd) capacity = some first)
    (again : str2Argv others (some cmd) capacity = some second) : first = second := by
  simp only [str2Argv] at returned again
  split at returned
  · rw [if_pos ‹_›] at again
    exact Option.some.inj (returned.symm.trans again)
  · rw [if_neg ‹_›] at again
    obtain ⟨state, ran, rfl⟩ := Option.map_eq_some_iff.mp returned
    obtain ⟨other, ranAgain, rfl⟩ := Option.map_eq_some_iff.mp again
    rw [argvLoop_unique rounds others ran ranAgain]

/-- What a command is like whose first words are stored. -/
theorem FirstWords.fits {rounds : Nat} {cmd : Chars} {capacity : Nat} {result : Argv}
    (first : FirstWords cmd capacity result) (positive : 1 ≤ capacity)
    (returned : str2Argv rounds (some cmd) capacity = some result) :
    trimmed cmd ≠ [] ∧ (words (trimmed cmd)).length ≤ capacity ∧ QuotesMatch (trimmed cmd) := by
  obtain ⟨others, other, again, -, stored⟩ := str2Argv_eq cmd capacity positive
  obtain rfl := str2Argv_unique returned again
  have bounded := first.bounded
  have same := first.stored
  rw [stored] at same
  by_cases blank : trimmed cmd = []
  · rw [if_pos blank, blank] at same
    have lengths := congrArg List.length same
    rw [show words [] = [] from rfl, List.take_nil] at lengths
    cases lengths
  · rw [if_neg blank] at same
    have counted : (args (trimmed cmd)).length ≤ capacity := by
      rw [if_neg blank] at stored
      rwa [← stored, Argv.words, List.length_map]
    have agree := eq_of_pieces (apart_inArg_inWord _) (trimmed cmd) (trimmed cmd).length 0 0 capacity
      (Nat.zero_add _) (Nat.le_refl 0) (fun impossible => absurd impossible (Nat.lt_irrefl 0))
      (fun impossible => absurd impossible (Nat.lt_irrefl 0)) (by rwa [args, List.length_map] at counted) same
    have quotes : QuotesMatch (trimmed cmd) := by
      refine (quotesMatch_iff _).mpr fun pos inside => ?_
      have here := agree pos inside
      rwa [Nat.zero_add] at here
    exact ⟨blank, args_eq_words quotes ▸ counted, quotes⟩

/-- `Str2Argv` stores the first words of the command, no more than there is room for, just if
the command is not blank, all its words fit, and the flag is right about each blank. -/
theorem str2Argv_words_iff (cmd : Chars) (capacity : Nat) (positive : 1 ≤ capacity)
    (isInt : capacity < 2 ^ 31) :
    (∃ rounds result, str2Argv rounds (some cmd) capacity = some result ∧ FirstWords cmd capacity result) ↔
      trimmed cmd ≠ [] ∧ (words (trimmed cmd)).length ≤ capacity ∧ QuotesMatch (trimmed cmd) := by
  constructor
  · rintro ⟨rounds, result, returned, first⟩
    exact first.fits positive returned
  · rintro ⟨notBlank, fits, quotes⟩
    obtain ⟨rounds, result, returned, counted, stored⟩ := str2Argv_eq cmd capacity positive
    rw [if_neg notBlank, args_eq_words quotes] at stored
    have bounded : result.argv.length ≤ capacity := by
      rwa [← stored, Argv.words, List.length_map] at fits
    refine ⟨rounds, result, returned, bounded, ?_, ?_⟩
    · rw [counted, toInt_of_lt (by omega)]
    · rw [stored, List.take_of_length_le fits]

/-- One argument is plain and one is in quotation marks with a blank inside. The rounds are enough
for the loop to end. -/
theorem str2Argv_words_iff_two :
    ∃ rounds result,
      str2Argv rounds (some ['l', 's', ' ', '\x22', 'a', ' ', 'b', '\x22']) (2 : Nat) = some result ∧
      FirstWords ['l', 's', ' ', '\x22', 'a', ' ', 'b', '\x22'] 2 result := by
  refine (str2Argv_words_iff _ 2 (by decide) (by decide)).mpr ⟨by decide, by decide, ?_⟩
  unfold QuotesMatch
  decide

/-- Two words are stored into an array of one. And a single quote closes a section that a
double quote has opened: the word in it is cut. -/
theorem stores_too_many :
    (¬ ∃ rounds result, str2Argv rounds (some ['a', ' ', 'b']) (1 : Nat) = some result ∧
        FirstWords ['a', ' ', 'b'] 1 result) ∧
      ¬ ∃ rounds result, str2Argv rounds (some ['\x22', 'a', '\x27', 'b', ' ', 'c', '\x22']) (20 : Nat) =
          some result ∧ FirstWords ['\x22', 'a', '\x27', 'b', ' ', 'c', '\x22'] 20 result := by
  constructor
  · rintro ⟨rounds, result, returned, first⟩
    obtain ⟨-, fits, -⟩ := first.fits (by decide) returned
    revert fits
    decide
  · rintro ⟨rounds, result, returned, first⟩
    obtain ⟨-, -, quotes⟩ := first.fits (by decide) returned
    revert quotes
    unfold QuotesMatch
    decide

end OpenTaker.CommandLines
