import Mathlib.Data.List.Sort

/-!
# Maximal stretches of positions

Some positions of a sequence are kept, the others separate. A stretch is a run of kept
positions that cannot be made longer on either side. The stretches lie apart, in one order,
and every kept position is in exactly one of them.

The scan finds them from left to right. It remembers where the stretch began in which it is.
-/

namespace OpenTaker.Stretches

universe u

/-- The positions from `low` up to `high` are kept, and no longer run around them is. -/
structure IsStretch (keep : Nat → Bool) (size low high : Nat) : Prop where
  nonempty : low < high
  inside : high ≤ size
  kept : ∀ pos, low ≤ pos → pos < high → keep pos = true
  before : low = 0 ∨ keep (low - 1) = false
  behind : high = size ∨ keep high = false

/-- All stretches in order, with something between any two of them. -/
structure AreStretches (keep : Nat → Bool) (size : Nat) (spans : List (Nat × Nat)) : Prop where
  ordered : spans.Pairwise (fun first second => first.2 < second.1)
  complete : ∀ low high, (low, high) ∈ spans ↔ IsStretch keep size low high

/-- The stretch that ends here, if it has begun. -/
def ended (start pos : Nat) : List (Nat × Nat) := if start < pos then [(start, pos)] else []

/-- Scan the positions that are left, with the start of the stretch that the scan is in. -/
def scan (keep : Nat → Bool) : Nat → Nat → Nat → List (Nat × Nat)
  | start, pos, 0 => ended start pos
  | start, pos, left + 1 =>
      if keep pos then scan keep start (pos + 1) left
      else ended start pos ++ scan keep (pos + 1) (pos + 1) left

/-- The maximal stretches below a size, from left to right. The scan starts with an empty stretch at
zero. -/
def stretches (keep : Nat → Bool) (size : Nat) : List (Nat × Nat) := scan keep 0 0 size

/-- The items between two positions, the second of which is not taken. -/
def piece {α : Type u} (items : List α) (span : Nat × Nat) : List α :=
  (items.drop span.1).take (span.2 - span.1)

/-- A stretch that has only begun holds nothing, and its piece is empty. -/
theorem piece_self {α : Type u} (items : List α) (pos : Nat) : piece items (pos, pos) = [] := by
  rw [piece, Nat.sub_self, List.take_zero]

/-- A position more adds one item at the end. -/
theorem piece_succ {α : Type u} {items : List α} {start pos : Nat} (reached : start ≤ pos)
    (inside : pos < items.length) :
    piece items (start, pos + 1) = piece items (start, pos) ++ [items[pos]] := by
  rw [piece, piece, Nat.succ_sub reached, List.take_add_one, List.getElem?_drop,
    Nat.add_sub_cancel' reached, List.getElem?_eq_getElem inside, Option.toList_some]

/-- A stretch inside of the list has as many items as positions. -/
theorem piece_length {α : Type u} {items : List α} {low high : Nat} (inside : high ≤ items.length) :
    (piece items (low, high)).length = high - low := by
  rw [piece, List.length_take, List.length_drop]
  omega

variable {keep : Nat → Bool} {start pos left size low high : Nat}

/-- A stretch that ends where it started is none. -/
@[simp] theorem ended_self : ended pos pos = [] := if_neg (Nat.lt_irrefl pos)

/-- What has ended is the one stretch that is not empty. -/
theorem mem_ended : (low, high) ∈ ended start pos ↔ start < pos ∧ low = start ∧ high = pos := by
  unfold ended
  split
  · simp [*]
  · simp only [List.not_mem_nil, false_iff]
    omega

/-- A position that is kept goes on with the stretch. -/
theorem scan_kept (kept : keep pos = true) :
    scan keep start pos (left + 1) = scan keep start (pos + 1) left := by
  rw [scan, if_pos kept]

/-- A position that is cut off ends the stretch and starts a new one behind it. -/
theorem scan_cut (cut : keep pos = false) :
    scan keep start pos (left + 1) = ended start pos ++ scan keep (pos + 1) (pos + 1) left := by
  rw [scan, if_neg (by simp [cut])]

/-- Kept positions are passed over, to the first one that is not. -/
theorem scan_skip (count : Nat) (kept : ∀ offset < count, keep (pos + offset) = true) :
    scan keep start pos (count + left) = scan keep start (pos + count) left := by
  induction count generalizing pos with
  | zero => rw [Nat.zero_add, Nat.add_zero]
  | succ count inductionHypothesis =>
    have first : keep pos = true := by simpa using kept 0 (by omega)
    rw [show count + 1 + left = count + left + 1 by omega, scan_kept first, inductionHypothesis,
      show pos + 1 + count = pos + (count + 1) by omega]
    intro offset bound
    have later := kept (offset + 1) (by omega)
    rwa [show pos + (offset + 1) = pos + 1 + offset by omega] at later

/-- Positions that separate are passed over between two stretches. -/
theorem scan_skip_cut (count : Nat) (cut : ∀ offset < count, keep (pos + offset) = false) :
    scan keep pos pos (count + left) = scan keep (pos + count) (pos + count) left := by
  induction count generalizing pos with
  | zero => rw [Nat.zero_add, Nat.add_zero]
  | succ count inductionHypothesis =>
    have first : keep pos = false := by simpa using cut 0 (by omega)
    rw [show count + 1 + left = count + left + 1 by omega, scan_cut first, ended_self, List.nil_append,
      inductionHypothesis, show pos + 1 + count = pos + (count + 1) by omega]
    intro offset bound
    have later := cut (offset + 1) (by omega)
    rwa [show pos + (offset + 1) = pos + 1 + offset by omega] at later

/-- A scan in a stretch finds that one first. -/
theorem scan_head (begun : start < pos) :
    ∃ high rest, scan keep start pos left = (start, high) :: rest ∧ pos ≤ high ∧ high ≤ pos + left := by
  induction left generalizing pos with
  | zero =>
    refine ⟨pos, [], ?_, Nat.le_refl pos, Nat.le_refl pos⟩
    rw [scan, ended, if_pos begun]
  | succ left inductionHypothesis =>
    cases kept : keep pos with
    | true =>
      obtain ⟨high, rest, scanned, lower, upper⟩ := inductionHypothesis (Nat.lt_succ_of_lt begun)
      exact ⟨high, rest, by rw [scan_kept kept, scanned], by omega, by omega⟩
    | false =>
      refine ⟨pos, scan keep (pos + 1) (pos + 1) left, ?_, Nat.le_refl pos, by omega⟩
      rw [scan_cut kept, ended, if_pos begun, List.singleton_append]

/-- The scan looks at the positions that are left only. -/
theorem scan_congr {other : Nat → Bool} (same : ∀ offset < left, keep (pos + offset) = other (pos + offset)) :
    scan keep start pos left = scan other start pos left := by
  induction left generalizing start pos with
  | zero => rfl
  | succ left inductionHypothesis =>
    have here : keep pos = other pos := by simpa using same 0 (by omega)
    have later : ∀ offset < left, keep (pos + 1 + offset) = other (pos + 1 + offset) := by
      intro offset bound
      have next := same (offset + 1) (by omega)
      rwa [show pos + (offset + 1) = pos + 1 + offset by omega] at next
    rw [scan, scan, here, inductionHypothesis later, inductionHypothesis later]

/-- What the scan knows at a position: the stretch it is in began at `start`. -/
structure Scanning (keep : Nat → Bool) (start pos : Nat) : Prop where
  reached : start ≤ pos
  kept : ∀ earlier, start ≤ earlier → earlier < pos → keep earlier = true
  before : start = 0 ∨ keep (start - 1) = false

namespace Scanning

/-- At the start the scan is in a stretch without positions. -/
theorem zero : Scanning keep 0 0 := ⟨Nat.le_refl 0, by omega, .inl rfl⟩

/-- A kept position extends the stretch the scan is in. -/
theorem next (scanning : Scanning keep start pos) (kept : keep pos = true) :
    Scanning keep start (pos + 1) where
  reached := Nat.le_succ_of_le scanning.reached
  kept := by
    intro earlier lower upper
    by_cases last : earlier = pos
    · rwa [last]
    · exact scanning.kept earlier lower (by omega)
  before := scanning.before

/-- Behind a cut the scan is in a new stretch, which begins there. -/
theorem restart (cut : keep pos = false) : Scanning keep (pos + 1) (pos + 1) :=
  ⟨Nat.le_refl _, by omega, .inr cut⟩

/-- A stretch that does not end before the position at which the scan is begins at `start`
or behind it. -/
theorem low_eq (scanning : Scanning keep start pos) (stretch : IsStretch keep size low high)
    (here : start ≤ low) (within : low < pos) : low = start := by
  rcases stretch.before with first | cut
  · omega
  · by_contra later
    have kept := scanning.kept (low - 1) (by omega) (by omega)
    rw [kept] at cut
    cases cut

/-- The stretch that ends at a position that separates, or at the end. -/
theorem mem_ended_iff (scanning : Scanning keep start pos) (within : pos ≤ size)
    (stops : pos = size ∨ keep pos = false) :
    (low, high) ∈ ended start pos ↔ IsStretch keep size low high ∧ start ≤ low ∧ low < pos := by
  rw [mem_ended]
  constructor
  · rintro ⟨begun, rfl, rfl⟩
    exact ⟨⟨begun, within, scanning.kept, scanning.before, stops⟩, Nat.le_refl _, begun⟩
  · rintro ⟨stretch, here, before⟩
    have same := scanning.low_eq stretch here before
    refine ⟨by omega, same, ?_⟩
    have inside := stretch.inside
    rcases Nat.lt_trichotomy high pos with shorter | equal | longer
    · have kept := scanning.kept high (by have := stretch.nonempty; omega) shorter
      rcases stretch.behind with atEnd | cut
      · omega
      · rw [kept] at cut
        cases cut
    · exact equal
    · have kept := stretch.kept pos (by omega) longer
      rcases stops with atEnd | cut
      · omega
      · rw [kept] at cut
        cases cut

/-- The scan finds the stretches from the one on in which it is. -/
theorem mem_scan (scanning : Scanning keep start pos) :
    (low, high) ∈ scan keep start pos left ↔ IsStretch keep (pos + left) low high ∧ start ≤ low := by
  induction left generalizing start pos with
  | zero =>
    rw [scan, scanning.mem_ended_iff (Nat.le_refl _) (.inl rfl)]
    constructor
    · exact fun ⟨stretch, here, _⟩ => ⟨stretch, here⟩
    · intro ⟨stretch, here⟩
      have nonempty := stretch.nonempty
      have inside := stretch.inside
      exact ⟨stretch, here, by omega⟩
  | succ left inductionHypothesis =>
    cases kept : keep pos with
    | true =>
      rw [scan_kept kept, inductionHypothesis (scanning.next kept),
        show pos + 1 + left = pos + (left + 1) by omega]
    | false =>
      rw [scan_cut kept, List.mem_append, inductionHypothesis (restart kept),
        scanning.mem_ended_iff (Nat.le_add_right pos (left + 1)) (.inr kept),
        show pos + 1 + left = pos + (left + 1) by omega]
      constructor
      · rintro (⟨stretch, here, -⟩ | ⟨stretch, later⟩)
        · exact ⟨stretch, here⟩
        · have reached := scanning.reached
          exact ⟨stretch, by omega⟩
      · rintro ⟨stretch, here⟩
        have notHere : low ≠ pos := by
          rintro rfl
          have impossible := stretch.kept low (Nat.le_refl _) stretch.nonempty
          rw [kept] at impossible
          cases impossible
        by_cases earlier : low < pos
        · exact .inl ⟨stretch, here, earlier⟩
        · exact .inr ⟨stretch, by omega⟩

/-- The scan misses no position that is kept: it lies in one of the stretches found. -/
theorem exists_span (scanning : Scanning keep start pos) {position : Nat} (here : start ≤ position)
    (inside : position < pos + left) (kept : keep position = true) :
    ∃ span ∈ scan keep start pos left, span.1 ≤ position ∧ position < span.2 := by
  have inEnded : position < pos → ∃ span ∈ ended start pos, span.1 ≤ position ∧ position < span.2 :=
    fun before => ⟨(start, pos), mem_ended.mpr ⟨by omega, rfl, rfl⟩, here, before⟩
  induction left generalizing start pos with
  | zero => exact inEnded inside
  | succ left inductionHypothesis =>
    cases keptHere : keep pos with
    | true =>
      rw [scan_kept keptHere]
      exact inductionHypothesis (scanning.next keptHere) here (by omega)
        fun before => ⟨(start, pos + 1), mem_ended.mpr ⟨by omega, rfl, rfl⟩, here, before⟩
    | false =>
      rw [scan_cut keptHere]
      rcases Nat.lt_trichotomy position pos with before | same | later
      · obtain ⟨span, found, within⟩ := inEnded before
        exact ⟨span, List.mem_append_left _ found, within⟩
      · rw [same, keptHere] at kept
        cases kept
      · obtain ⟨span, found, within⟩ := inductionHypothesis (restart keptHere) later (by omega)
          fun before => absurd before (by omega)
        exact ⟨span, List.mem_append_right _ found, within⟩

/-- What the scan finds comes in order, with a position left out between two stretches. -/
theorem scan_ordered (scanning : Scanning keep start pos) :
    (scan keep start pos left).Pairwise (fun first second => first.2 < second.1) := by
  induction left generalizing start pos with
  | zero =>
    unfold scan ended
    split <;> simp
  | succ left inductionHypothesis =>
    cases kept : keep pos with
    | true =>
      rw [scan_kept kept]
      exact inductionHypothesis (scanning.next kept)
    | false =>
      rw [scan_cut kept, List.pairwise_append]
      refine ⟨by unfold ended; split <;> simp, inductionHypothesis (restart kept), ?_⟩
      rintro ⟨low, high⟩ ends ⟨nextLow, nextHigh⟩ found
      obtain ⟨-, -, rfl⟩ := mem_ended.mp ends
      exact ((restart kept).mem_scan.mp found).2

end Scanning

/-- The scan finds just the maximal stretches, whatever is kept. -/
theorem areStretches (keep : Nat → Bool) (size : Nat) : AreStretches keep size (stretches keep size) where
  ordered := Scanning.zero.scan_ordered
  complete low high := by
    rw [stretches, Scanning.zero.mem_scan, Nat.zero_add]
    exact and_iff_left (Nat.zero_le low)

/-- The stretches are determined by what is kept, so that two ways of finding them agree. -/
theorem AreStretches.eq_stretches {spans : List (Nat × Nat)} (are : AreStretches keep size spans) :
    spans = stretches keep size := by
  have byLow : ∀ spans, AreStretches keep size spans →
      spans.Pairwise (fun first second => first.1 < second.1) := by
    intro spans are
    refine are.ordered.imp_of_mem ?_
    rintro ⟨low, high⟩ ⟨nextLow, nextHigh⟩ member - apart
    exact ((are.complete _ _).mp member).nonempty.trans apart
  have irreflexive : Std.Irrefl (fun first second : Nat × Nat => first.1 < second.1) :=
    ⟨fun span => Nat.lt_irrefl span.1⟩
  have antisymmetric : Std.Antisymm (fun first second : Nat × Nat => first.1 < second.1) :=
    ⟨fun _ _ lower higher => absurd lower (Nat.lt_asymm higher)⟩
  refine List.Pairwise.eq_of_mem_iff (byLow spans are) (byLow _ (areStretches keep size)) ?_
  rintro ⟨low, high⟩
  rw [are.complete, (areStretches keep size).complete]

/-- Two stretches that share a position are one, as both go as far as they can. -/
theorem IsStretch.eq_of_shared {otherLow otherHigh : Nat} (first : IsStretch keep size low high)
    (second : IsStretch keep size otherLow otherHigh) (inFirst : low ≤ pos ∧ pos < high)
    (inSecond : otherLow ≤ pos ∧ pos < otherHigh) : low = otherLow ∧ high = otherHigh := by
  have noCut : ∀ cut, keep cut = false →
      ¬ (low ≤ cut ∧ cut < high) ∧ ¬ (otherLow ≤ cut ∧ cut < otherHigh) := by
    intro cut isCut
    constructor
    · rintro ⟨lower, upper⟩
      rw [first.kept cut lower upper] at isCut
      cases isCut
    · rintro ⟨lower, upper⟩
      rw [second.kept cut lower upper] at isCut
      cases isCut
  have firstInside := first.inside
  have secondInside := second.inside
  constructor
  · rcases first.before with begins | cut <;> rcases second.before with otherBegins | otherCut
    · omega
    · have outside := (noCut _ otherCut).1
      omega
    · have outside := (noCut _ cut).2
      omega
    · have outside := (noCut _ cut).2
      have otherOutside := (noCut _ otherCut).1
      omega
  · rcases first.behind with ends | cut <;> rcases second.behind with otherEnds | otherCut
    · omega
    · have outside := (noCut _ otherCut).1
      omega
    · have outside := (noCut _ cut).2
      omega
    · have outside := (noCut _ cut).2
      have otherOutside := (noCut _ otherCut).1
      omega

/-- A position that is kept lies in exactly one stretch. -/
theorem existsUnique_span (keep : Nat → Bool) {size pos : Nat} (inside : pos < size)
    (kept : keep pos = true) :
    ∃! span : Nat × Nat, span ∈ stretches keep size ∧ span.1 ≤ pos ∧ pos < span.2 := by
  obtain ⟨span, found, within⟩ := Scanning.zero.exists_span (Nat.zero_le pos)
    (by rwa [Nat.zero_add]) kept
  refine ⟨span, ⟨found, within⟩, ?_⟩
  rintro other ⟨alsoFound, otherWithin⟩
  have complete := (areStretches keep size).complete
  obtain ⟨lows, highs⟩ := ((complete _ _).mp alsoFound).eq_of_shared ((complete _ _).mp found)
    otherWithin within
  exact Prod.ext lows highs

/-! ## Two scans of one list -/

section TwoScans

variable {α : Type u}

/-- Two scans that differ, differ first at a position inside of a stretch. -/
def Apart (first second : Nat → Bool) : Prop :=
  ∀ pos, first pos ≠ second pos → 0 < pos ∧ (first (pos - 1) = second (pos - 1) → first (pos - 1) = true)

/-- Pieces that begin together and are equal end together. -/
theorem eq_of_heads {text : List α} {start high other count : Nat} {rest others : List (Nat × Nat)}
    (inside : high ≤ text.length) (otherInside : other ≤ text.length) (begun : start ≤ high)
    (otherBegun : start ≤ other) (bounded : ((start, high) :: rest).length ≤ count)
    (same : ((start, high) :: rest).map (piece text) =
      (((start, other) :: others).map (piece text)).take count) : high = other := by
  cases count with
  | zero => cases bounded
  | succ count =>
    have heads := (List.cons.inj same).1
    have lengths := congrArg List.length heads
    rw [piece_length inside, piece_length otherInside] at lengths
    omega

/-- Where two scans with such pieces have agreed so far, they agree once more: a piece of the one would
end there, and not the piece of the other. -/
theorem agree_of_pieces {first second : Nat → Bool} (apart : Apart first second) {text : List α}
    {left start pos count : Nat} (within : pos + (left + 1) = text.length)
    (agree : 0 < pos → first (pos - 1) = second (pos - 1))
    (begun : 0 < pos → first (pos - 1) = true → start < pos)
    (bounded : (scan first start pos (left + 1)).length ≤ count)
    (same : (scan first start pos (left + 1)).map (piece text) =
      ((scan second start pos (left + 1)).map (piece text)).take count) : first pos = second pos := by
  by_contra differ
  obtain ⟨positive, inside⟩ := apart pos differ
  have later := begun positive (inside (agree positive))
  cases kept : first pos with
  | true =>
    have cut : second pos = false := by simpa [kept] using differ
    obtain ⟨high, rest, scanned, lower, upper⟩ :=
      @scan_head first start (pos + 1) left (Nat.lt_succ_of_lt later)
    rw [scan_kept kept, scanned] at bounded same
    rw [scan_cut cut, ended, if_pos later, List.singleton_append] at same
    have ends := eq_of_heads (by omega) (by omega) (by omega) (by omega) bounded same
    omega
  | false =>
    have keptBySecond : second pos = true := by simpa [kept] using differ
    obtain ⟨high, rest, scanned, lower, upper⟩ :=
      @scan_head second start (pos + 1) left (Nat.lt_succ_of_lt later)
    rw [scan_cut kept, ended, if_pos later, List.singleton_append] at bounded same
    rw [scan_kept keptBySecond, scanned] at same
    have ends := eq_of_heads (by omega) (by omega) (by omega) (by omega) bounded same
    omega

/-- The pieces of a scan that are the first pieces of another show that both scans keep the
same positions. -/
theorem eq_of_pieces {first second : Nat → Bool} (apart : Apart first second) (text : List α)
    (left start pos count : Nat) (within : pos + left = text.length) (reached : start ≤ pos)
    (agree : 0 < pos → first (pos - 1) = second (pos - 1))
    (begun : 0 < pos → first (pos - 1) = true → start < pos)
    (bounded : (scan first start pos left).length ≤ count)
    (same : (scan first start pos left).map (piece text) =
      ((scan second start pos left).map (piece text)).take count) :
    ∀ offset < left, first (pos + offset) = second (pos + offset) := by
  induction left generalizing start pos count with
  | zero => omega
  | succ left inductionHypothesis =>
    have here := agree_of_pieces apart within agree begun bounded same
    have behind : ∀ offset < left, first (pos + 1 + offset) = second (pos + 1 + offset) := by
      cases kept : first pos with
      | true =>
        rw [scan_kept kept] at bounded same
        rw [scan_kept (here ▸ kept)] at same
        exact inductionHypothesis start (pos + 1) count (by omega) (by omega) (fun _ => here)
          (fun _ _ => by omega) bounded same
      | false =>
        have restart := inductionHypothesis (pos + 1) (pos + 1)
        rw [scan_cut kept] at bounded same
        rw [scan_cut (here ▸ kept)] at same
        by_cases later : start < pos
        · rw [ended, if_pos later, List.singleton_append] at bounded same
          cases count with
          | zero => cases bounded
          | succ count =>
            exact restart count (by omega) (Nat.le_refl _) (fun _ => here)
              (fun _ impossible => absurd impossible (by simp [kept])) (Nat.le_of_succ_le_succ bounded)
              (List.cons.inj same).2
        · rw [ended, if_neg later, List.nil_append] at bounded same
          exact restart count (by omega) (Nat.le_refl _) (fun _ => here)
            (fun _ impossible => absurd impossible (by simp [kept])) bounded same
    intro offset bound
    cases offset with
    | zero => exact here
    | succ offset =>
      rw [show pos + (offset + 1) = pos + 1 + offset by omega]
      exact behind offset (by omega)

end TwoScans

end OpenTaker.Stretches
