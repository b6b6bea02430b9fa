import OpenTaker.AddressText
import OpenTaker.InetAddrs

/-!
# Printing and reading IPv6 addresses

`Addr2Str` prints an IPv6 address group by group. Two flags remember whether a run of zero
groups has been left out and whether the loop is still in it; the first run is left out,
however short, and the last group is always printed. An IPv4-mapped address is printed with
its dotted decimal part.

What is printed is a text of the IPv6 grammar that denotes the address, so that `GetIpAddr`
reads the address back.
-/

namespace OpenTaker

open ByteReads AddressText

/-! ## Reading -/

/-- The bytes of groups in network order, the high byte of each group first. -/
def groupBytes (groups : List Nat) : List UInt8 :=
  groups.flatMap (fun group => [UInt8.ofNat (group / 256), UInt8.ofNat group])

/-- `inet_pton(AF_INET6, …)`, by the grammar of texts that the C library accepts. -/
def inetPton6 (text : Text) : Option In6Addr :=
  match parse6 text with
  | some groups =>
      if size : (groupBytes groups).length = 16 then some ⟨groupBytes groups, size⟩ else none
  | none => none

/-- `inet_pton(AF_INET, …)`, by the grammar of the texts that it takes. -/
def inetPton4 (text : Text) : Option InAddr :=
  match parse4 text with
  | some [b1, b2, b3, b4] =>
      some ⟨UInt8.ofNat b1, UInt8.ofNat b2, UInt8.ofNat b3, UInt8.ofNat b4⟩
  | _ => none

/-- `net_in6_addr`: the sixteen bytes of `addr8`, in the order of the network. -/
abbrev NetIn6Addr := In6Addr

/-- `GetIpAddr`. An IPv4 address is stored in host order in the first word. -/
def getIpAddr (text : Text) : NetIn6Addr :=
  if ':' ∈ text then
    match inetPton6 text with
    | some addr6 => addr6
    | none => ⟨List.replicate 16 0, rfl⟩
  else
    match inetPton4 text with
    | some addr4 => ⟨[addr4.b4, addr4.b3, addr4.b2, addr4.b1] ++ List.replicate 12 0, rfl⟩
    | none => ⟨List.replicate 16 0, rfl⟩

/-! ## Printing -/

/-- `IP4_MAP_PRE`, the twelve bytes in front of an IPv4 address that is mapped into IPv6. -/
def IP4_MAP_PRE : List UInt8 := List.replicate 10 0 ++ [255, 255]

/-- The size of the buffer that the text is written to, by which all bounds are measured. -/
def sizeofAddrBuf : Nat := 64

/-- `addrBuf` up to `pos`, and the flags of the loop. -/
structure AddrBuf where
  text : Text
  hasCompact : Bool
  inCompact : Bool

namespace AddrBuf

/-- `addrBuf[pos++] = char`, in the bounds of the buffer. -/
def put (buf : AddrBuf) (char : Char) : Option AddrBuf :=
  if buf.text.length < sizeofAddrBuf then some { buf with text := buf.text ++ [char] } else none

/-- `sprintf(&addrBuf[pos], "%X", cur)` and `pos = strlen(addrBuf)`. The terminator has to
fit, too. -/
def format (buf : AddrBuf) (cur : Nat) : Option AddrBuf :=
  if buf.text.length + (numeral 16 cur).length < sizeofAddrBuf then
    some { buf with text := buf.text ++ numeral 16 cur }
  else none

/-- Print a group, with a colon before it but for the first one. -/
def print (buf : AddrBuf) (i cur : Nat) : Option AddrBuf := do
  let separated ← if i > 0 then buf.put ':' else some buf
  separated.format cur

/-- One round of the loop, for one group of the address. -/
def step (address : NetIn6Addr) (i : Nat) (buf : AddrBuf) : Option AddrBuf :=
  let cur := ntohs (halfAt address.bytes i)
  if i = 14 then buf.print i cur
  else if cur = 0 then
    if !buf.hasCompact || buf.inCompact then do
      let compact ←
        if !buf.hasCompact then ({ buf with hasCompact := true }).put ':' else some buf
      some { compact with inCompact := true }
    else buf.print i cur
  else ({ buf with inCompact := false }).print i cur

/-- So many rounds of the loop from `i` on. -/
def loop (address : NetIn6Addr) : Nat → Nat → AddrBuf → Option AddrBuf
  | _, 0, buf => some buf
  | i, left + 1, buf => (buf.step address i).bind (fun next => loop address (i + 2) left next)

end AddrBuf

/-- `Addr2Str(net_in6_addr&)`. The last group ends the text in the buffer. -/
def addr2Str (address : NetIn6Addr) : Option Text :=
  if address.bytes.take 12 = IP4_MAP_PRE then
    some ([':', ':', 'F', 'F', 'F', 'F', ':'] ++ dotted ((address.bytes.drop 12).map UInt8.toNat))
  else (AddrBuf.loop address 0 8 ⟨[], false, false⟩).map (·.text)

/-! ## Groups and bytes -/

/-- The groups that bytes in network order make, two bytes for each. -/
def pairs : List UInt8 → List Nat
  | high :: low :: rest => (high.toNat * 256 + low.toNat) :: pairs rest
  | _ => []

/-- The eight groups of an address, two bytes each, the first one high. -/
def groupsOf (address : In6Addr) : List Nat := pairs address.bytes

/-- The groups of an address of even length give its bytes back, two for each group. Sixteen bytes
make eight groups. -/
theorem groupBytes_pairs {bytes : List UInt8} {count : Nat} (even : bytes.length = 2 * count) :
    groupBytes (pairs bytes) = bytes ∧ (pairs bytes).length = count ∧
      ∀ group ∈ pairs bytes, group < 65536 := by
  induction count generalizing bytes with
  | zero =>
    have empty : bytes = [] := List.eq_nil_of_length_eq_zero even
    rw [empty]
    simp [pairs, groupBytes]
  | succ count inductionHypothesis =>
    match bytes, even with
    | high :: low :: rest, even =>
      have highByte : high.toNat < 256 := high.toNat_lt
      have lowByte : low.toNat < 256 := low.toNat_lt
      have shorter : rest.length = 2 * count := by
        simp only [List.length_cons] at even
        omega
      obtain ⟨same, length, small⟩ := inductionHypothesis shorter
      have first : UInt8.ofNat ((high.toNat * 256 + low.toNat) / 256) = high := by
        rw [Nat.mul_comm, Nat.mul_add_div (by decide), Nat.div_eq_of_lt lowByte, Nat.add_zero]
        exact UInt8.ofNat_toNat
      have second : UInt8.ofNat (high.toNat * 256 + low.toNat) = low := by
        apply UInt8.toNat_inj.mp
        simp
      refine ⟨?_, by rw [pairs, List.length_cons, length], ?_⟩
      · simp only [groupBytes, pairs, List.flatMap_cons, first, second] at same ⊢
        rw [same]
        rfl
      · rw [pairs, List.forall_mem_cons]
        exact ⟨by omega, small⟩

/-- Groups of sixteen bits are read back from their bytes. -/
theorem pairs_groupBytes {groups : List Nat} (small : ∀ group ∈ groups, group < 65536) :
    pairs (groupBytes groups) = groups := by
  induction groups with
  | nil => rfl
  | cons group rest inductionHypothesis =>
    obtain ⟨here, later⟩ := List.forall_mem_cons.mp small
    have value : (UInt8.ofNat (group / 256)).toNat * 256 + (UInt8.ofNat group).toNat = group := by
      simp
      omega
    have following := inductionHypothesis later
    rw [groupBytes] at following
    simp only [groupBytes, List.flatMap_cons, List.cons_append, List.nil_append, pairs, value,
      following]

/-- The group at an offset is what the loop reads there. -/
theorem group_at (address : In6Addr) {k : Nat} (inside : k < 8) :
    ∃ cur, ntohs (halfAt address.bytes (2 * k)) = cur ∧ cur < 65536 ∧
      pairs (address.bytes.drop (2 * k)) = cur :: pairs (address.bytes.drop (2 * (k + 1))) := by
  have size := address.size
  have first : 2 * k < address.bytes.length := by omega
  have second : 2 * k + 1 < address.bytes.length := by omega
  have dropped : address.bytes.drop (2 * k) =
      address.bytes[2 * k] :: address.bytes[2 * k + 1] :: address.bytes.drop (2 * (k + 1)) := by
    rw [List.drop_eq_getElem_cons first, List.drop_eq_getElem_cons second]
    rfl
  have high : byteAt address.bytes (2 * k) = address.bytes[2 * k].toNat := by simp [byteAt, first]
  have low : byteAt address.bytes (2 * k + 1) = address.bytes[2 * k + 1].toNat := by
    simp [byteAt, second]
  have highByte : address.bytes[2 * k].toNat < 256 := UInt8.toNat_lt _
  have lowByte : address.bytes[2 * k + 1].toNat < 256 := UInt8.toNat_lt _
  refine ⟨address.bytes[2 * k].toNat * 256 + address.bytes[2 * k + 1].toNat, ?_, by omega, ?_⟩
  · rw [halfAt, high, low, Nat.add_comm, Nat.mul_comm 256, ntohs_bytes lowByte highByte]
  · rw [dropped, pairs]

/-- The reader finds the address that a text denotes. -/
theorem inetPton6_of_denotes {text : Text} {address : In6Addr}
    (denotes : Denotes text (groupsOf address)) : inetPton6 text = some address := by
  have even : address.bytes.length = 2 * 8 := address.size
  have bytes : groupBytes (groupsOf address) = address.bytes := (groupBytes_pairs even).1
  simp only [inetPton6, parse6_iff.mpr denotes, bytes, address.size, dite_true]

/-- A text is read as an address when it denotes the groups of the address, and only then. -/
theorem inetPton6_iff {text : Text} {address : In6Addr} :
    inetPton6 text = some address ↔ Denotes text (groupsOf address) := by
  refine ⟨fun read => ?_, inetPton6_of_denotes⟩
  unfold inetPton6 at read
  split at read
  · rename_i groups parsed
    split at read
    · cases read
      have denotes := parse6_iff.mp parsed
      rwa [groupsOf, pairs_groupBytes denotes.eight.2]
    · cases read
  · cases read

/-! ## What the loop prints -/

/-- The text of groups between colons, in hexadecimal without leading zeros. -/
def hexText (groups : List Nat) : Text := join ':' (groups.map (numeral 16))

/-- One group more is written behind a colon, as the loop of the source does from left to right. -/
theorem hexText_concat {groups : List Nat} (some : groups ≠ []) (group : Nat) :
    hexText (groups ++ [group]) = hexText groups ++ ':' :: numeral 16 group := by
  rw [hexText, List.map_append, List.map_singleton, join_concat (by simpa using some), hexText]

/-- A group takes four digits and a colon at most. -/
theorem hexText_length {groups : List Nat} (small : ∀ group ∈ groups, group < 65536) :
    (hexText groups).length ≤ 5 * groups.length := by
  induction groups with
  | nil => simp [hexText]
  | cons group rest inductionHypothesis =>
    obtain ⟨here, later⟩ := List.forall_mem_cons.mp small
    have digits : (numeral 16 group).length ≤ 4 := numeral_length (by decide) (by decide) here
    have following := inductionHypothesis later
    cases rest with
    | nil => simp [hexText]; omega
    | cons next rest =>
      simp only [hexText, List.map_cons, join_cons_cons, List.length_append, List.length_cons] at following ⊢
      omega

/-- The buffer after the groups that the loop has been through, of which none was the last:
all of them are printed, or the zeros at the end are being left out, or a run of zeros was
left out and the groups behind it are printed. -/
inductive Printed : List Nat → AddrBuf → Prop where
  | all (groups : List Nat) : Printed groups ⟨hexText groups, false, false⟩
  | zeros (head : List Nat) (count : Nat) :
      0 < count → Printed (head ++ List.replicate count 0) ⟨hexText head ++ [':'], true, true⟩
  | behind (head : List Nat) (count : Nat) (rest : List Nat) :
      0 < count → rest ≠ [] →
        Printed (head ++ List.replicate count 0 ++ rest)
          ⟨hexText head ++ ':' :: ':' :: hexText rest, true, false⟩

/-- The text of an address after the last group. -/
inductive Shape : List Nat → Text → Prop where
  | all (groups : List Nat) : Shape groups (hexText groups)
  | compact (head : List Nat) (count : Nat) (rest : List Nat) :
      0 < count → Shape (head ++ List.replicate count 0 ++ rest)
        (hexText head ++ ':' :: ':' :: hexText rest)

section Loop

variable {done : List Nat} {buf : AddrBuf} {cur i : Nat}

/-- The text grows by at most five characters a group. -/
theorem Printed.length (printed : Printed done buf) (small : ∀ group ∈ done, group < 65536) :
    buf.text.length ≤ 5 * done.length := by
  cases printed with
  | all => exact hexText_length small
  | zeros head count some =>
    have first := hexText_length (fun group member => small group (List.mem_append_left _ member))
    simp only [List.length_append, List.length_replicate, List.length_singleton]
    omega
  | behind head count rest some =>
    simp only [List.append_assoc, List.mem_append] at small
    have first := hexText_length (fun group member => small group (.inl member))
    have last := hexText_length (fun group member => small group (.inr (.inr member)))
    simp only [List.length_append, List.length_replicate, List.length_cons]
    omega

/-- A group is printed in the bounds of the buffer. -/
theorem AddrBuf.print_eq {text : Text} (room : text.length ≤ 40)
    (digits : (numeral 16 cur).length ≤ 4) (hasCompact inCompact : Bool) :
    AddrBuf.print ⟨text, hasCompact, inCompact⟩ i cur =
      some ⟨text ++ (if i > 0 then [':'] else []) ++ numeral 16 cur, hasCompact, inCompact⟩ := by
  by_cases first : i > 0
  · have separated : text.length < sizeofAddrBuf := Nat.lt_of_le_of_lt room (by decide)
    have fits : text.length + 1 + (numeral 16 cur).length < sizeofAddrBuf := by
      simp only [sizeofAddrBuf]
      omega
    simp [AddrBuf.print, AddrBuf.put, AddrBuf.format, first, separated, fits]
  · have fits : text.length + (numeral 16 cur).length < sizeofAddrBuf := by
      simp only [sizeofAddrBuf]
      omega
    simp [AddrBuf.print, AddrBuf.format, first, fits]

/-- A group behind those that are printed is the text of one group more, with a colon in front
unless it is the first. -/
theorem hexText_print (groups : List Nat) (cur : Nat) (first : i > 0 ↔ groups ≠ []) :
    hexText groups ++ (if i > 0 then [':'] else []) ++ numeral 16 cur = hexText (groups ++ [cur]) := by
  by_cases empty : groups = []
  · have atStart : ¬ i > 0 := fun later => first.mp later empty
    simp [empty, atStart, hexText]
  · rw [if_pos (first.mpr empty), hexText_concat empty, List.append_assoc]
    rfl

/-- Behind the compressed groups the loop writes a colon after each group but the last, which is the
text with one group more. -/
theorem hexText_print_behind {head rest : List Nat} (some : rest ≠ []) (cur : Nat) :
    hexText head ++ ':' :: ':' :: hexText rest ++ [':'] ++ numeral 16 cur =
      hexText head ++ ':' :: ':' :: hexText (rest ++ [cur]) := by
  rw [hexText_concat some]
  simp

variable {address : NetIn6Addr}

/-- A round for a group that is not the last. -/
theorem Printed.step (printed : Printed done buf) (room : buf.text.length ≤ 40)
    (read : ntohs (halfAt address.bytes i) = cur) (small : cur < 65536)
    (first : i > 0 ↔ done ≠ []) (notLast : i ≠ 14) :
    ∃ next, buf.step address i = some next ∧ Printed (done ++ [cur]) next := by
  have digits : (numeral 16 cur).length ≤ 4 := numeral_length (by decide) (by decide) small
  cases printed with
  | all =>
    by_cases zero : cur = 0
    · have separated : (hexText done).length < sizeofAddrBuf := Nat.lt_of_le_of_lt room (by decide)
      refine ⟨⟨hexText done ++ [':'], true, true⟩, ?_, ?_⟩
      · simp [AddrBuf.step, AddrBuf.put, notLast, read, zero, separated]
      · rw [zero]
        exact .zeros done 1 Nat.one_pos
    · refine ⟨⟨hexText (done ++ [cur]), false, false⟩, ?_, .all _⟩
      simp only [AddrBuf.step, if_neg notLast, read, if_neg zero]
      rw [AddrBuf.print_eq room digits, hexText_print done cur first]
  | zeros head count some =>
    have later : i > 0 := first.mpr (by simp; omega)
    by_cases zero : cur = 0
    · refine ⟨⟨hexText head ++ [':'], true, true⟩, ?_, ?_⟩
      · simp [AddrBuf.step, notLast, read, zero]
      · rw [zero, List.append_assoc, ← List.replicate_succ']
        exact .zeros head (count + 1) (Nat.succ_pos count)
    · refine ⟨⟨hexText head ++ ':' :: ':' :: hexText [cur], true, false⟩, ?_,
        .behind head count [cur] some (List.cons_ne_nil _ _)⟩
      simp only [AddrBuf.step, if_neg notLast, read, if_neg zero]
      rw [AddrBuf.print_eq room digits, if_pos later]
      simp [hexText]
  | behind head count rest some notEmpty =>
    have later : i > 0 := first.mpr (by simp [notEmpty])
    refine ⟨⟨hexText head ++ ':' :: ':' :: hexText (rest ++ [cur]), true, false⟩, ?_, ?_⟩
    · by_cases zero : cur = 0
      · simp only [AddrBuf.step, if_neg notLast, read, if_pos zero]
        rw [if_neg (by decide), AddrBuf.print_eq room digits, if_pos later,
          hexText_print_behind notEmpty]
      · simp only [AddrBuf.step, if_neg notLast, read, if_neg zero]
        rw [AddrBuf.print_eq room digits, if_pos later, hexText_print_behind notEmpty]
    · rw [List.append_assoc]
      exact .behind head count (rest ++ [cur]) some (by simp)

/-- The round for the last group, which is printed always. -/
theorem Printed.last (printed : Printed done buf) (room : buf.text.length ≤ 40)
    (read : ntohs (halfAt address.bytes 14) = cur) (small : cur < 65536) (notFirst : done ≠ []) :
    ∃ next, buf.step address 14 = some next ∧ Shape (done ++ [cur]) next.text ∧
      next.text.length ≤ 45 := by
  have digits : (numeral 16 cur).length ≤ 4 := numeral_length (by decide) (by decide) small
  have print : buf.step address 14 =
      some ⟨buf.text ++ [':'] ++ numeral 16 cur, buf.hasCompact, buf.inCompact⟩ := by
    simp only [AddrBuf.step, if_true, read]
    exact AddrBuf.print_eq room digits _ _
  refine ⟨_, print, ?_, ?_⟩
  · cases printed with
    | all =>
      have text := hexText_concat notFirst cur
      simp only [List.append_assoc, List.singleton_append, ← text]
      exact .all _
    | zeros head count some =>
      have shape := Shape.compact head count [cur] some
      simpa [hexText] using shape
    | behind head count rest some notEmpty =>
      rw [List.append_assoc, hexText_print_behind notEmpty]
      exact .compact head count (rest ++ [cur]) some
  · simp only [List.length_append, List.length_singleton]
    omega

/-- What a round finds: the group it reads, and room in the buffer. -/
theorem Printed.round (printed : Printed done buf) (inside : done.length < 8)
    (groups : done ++ pairs (address.bytes.drop (2 * done.length)) = groupsOf address) :
    ∃ cur, ntohs (halfAt address.bytes (2 * done.length)) = cur ∧ cur < 65536 ∧
      buf.text.length ≤ 40 ∧
      (done ++ [cur]) ++ pairs (address.bytes.drop (2 * (done ++ [cur]).length)) = groupsOf address := by
  have even : address.bytes.length = 2 * 8 := address.size
  obtain ⟨-, -, small⟩ := groupBytes_pairs even
  obtain ⟨cur, read, curSmall, following⟩ := group_at address inside
  have doneSmall : ∀ group ∈ done, group < 65536 := by
    intro group member
    apply small
    rw [← groupsOf, ← groups]
    exact List.mem_append_left _ member
  have bound := printed.length doneSmall
  refine ⟨cur, read, curSmall, by omega, ?_⟩
  rw [List.length_append, List.length_singleton, List.append_assoc, List.singleton_append,
    ← following, groups]

/-- The rounds from a group on print the text of the whole address. -/
theorem AddrBuf.loop_shape (left : Nat) (printed : Printed done buf)
    (length : done.length + left = 7)
    (groups : done ++ pairs (address.bytes.drop (2 * done.length)) = groupsOf address) :
    ∃ last, AddrBuf.loop address (2 * done.length) (left + 1) buf = some last ∧
      Shape (groupsOf address) last.text ∧ last.text.length ≤ 45 := by
  induction left generalizing done buf with
  | zero =>
    obtain ⟨cur, read, small, room, following⟩ := printed.round (by omega) groups
    have seven : 2 * done.length = 14 := by omega
    have notFirst : done ≠ [] := by
      rintro rfl
      cases length
    rw [seven] at read
    obtain ⟨last, stepped, shape, short⟩ := printed.last room read small notFirst
    have ended : address.bytes.drop (2 * (done ++ [cur]).length) = [] := by
      apply List.drop_eq_nil_of_le
      rw [address.size, List.length_append, List.length_singleton]
      omega
    have none : pairs [] = [] := rfl
    rw [ended, none, List.append_nil] at following
    refine ⟨last, ?_, following ▸ shape, short⟩
    rw [seven, AddrBuf.loop, stepped]
    rfl
  | succ left inductionHypothesis =>
    obtain ⟨cur, read, small, room, following⟩ := printed.round (by omega) groups
    have first : 2 * done.length > 0 ↔ done ≠ [] := by
      rw [← List.length_pos_iff]
      omega
    obtain ⟨next, stepped, nextPrinted⟩ := printed.step room read small first (by omega)
    have length' : (done ++ [cur]).length + left = 7 := by
      rw [List.length_append, List.length_singleton]
      omega
    obtain ⟨last, looped, shape, short⟩ := inductionHypothesis nextPrinted length' following
    refine ⟨last, ?_, shape, short⟩
    rw [List.length_append, List.length_singleton, Nat.mul_add] at looped
    rw [AddrBuf.loop, stepped]
    exact looped

end Loop

/-! ## The text denotes the address -/

/-- A group that was printed is parsed to its value; it has four digits at most. -/
theorem parseGroup_numeral {group : Nat} (small : group < 65536) :
    parseGroup (numeral 16 group) = some group := by
  have digits : (numeral 16 group).length ≤ 4 := numeral_length (by decide) (by decide) small
  rw [parseGroup, if_neg, readNumber_numeral (by decide) (by decide)]
  rintro (empty | long)
  · exact numeral_ne_nil 16 group empty
  · omega

/-- The pieces of a printed list of groups denote the groups one by one. -/
theorem groups_numerals {groups : List Nat} (small : ∀ group ∈ groups, group < 65536) :
    List.Forall₂ (fun piece group => parseGroup piece = some group) (groups.map (numeral 16)) groups := by
  rw [List.forall₂_map_left_iff, List.forall₂_same]
  exact fun group member => parseGroup_numeral (small group member)

/-- And so they denote the list, since none of them is an address in decimal. -/
theorem pieces_numerals {groups : List Nat} (small : ∀ group ∈ groups, group < 65536) :
    Pieces (groups.map (numeral 16)) groups := by
  induction groups with
  | nil => exact .nil
  | cons group rest inductionHypothesis =>
    obtain ⟨here, later⟩ := List.forall_mem_cons.mp small
    exact .cons (parseGroup_numeral here) (inductionHypothesis later)

/-- The texts of the loop belong to the grammar. -/
theorem Shape.denotes {groups : List Nat} {text : Text} (shape : Shape groups text)
    (eight : groups.length = 8) (small : ∀ group ∈ groups, group < 65536) : Denotes text groups := by
  cases shape with
  | all => exact .full (pieces_numerals small) eight
  | compact head count rest some =>
    simp only [List.length_append, List.length_replicate] at eight
    simp only [List.append_assoc, List.mem_append] at small
    have zeros : 8 - head.length - rest.length = count := by omega
    have denotes := Denotes.compact (groups_numerals (fun group member => small group (.inl member)))
      (pieces_numerals (fun group member => small group (.inr (.inr member)))) (by omega)
    rwa [zeros] at denotes

/-- The text of an IPv4-mapped address, with its last two groups in decimal. -/
def mappedText (octets : List Nat) : Text := [':', ':', 'F', 'F', 'F', 'F', ':'] ++ dotted octets

/-- The text of an IPv4 address takes at most fifteen characters. -/
theorem dotted_length {b1 b2 b3 b4 : Nat} (bytes : ∀ octet ∈ [b1, b2, b3, b4], octet < 256) :
    (dotted [b1, b2, b3, b4]).length ≤ 15 := by
  have digits : ∀ octet ∈ [b1, b2, b3, b4], (numeral 10 octet).length ≤ 3 := by
    intro octet member
    have small := bytes octet member
    exact numeral_length (by decide) (by decide) (by omega)
  simp only [List.forall_mem_cons] at digits
  simp only [dotted, List.map_cons, List.map_nil, join_cons_cons, join_singleton,
    List.length_append, List.length_cons]
  omega

/-- The text of a mapped address denotes its eight groups, of which the last two come from the
decimal part. -/
theorem denotes_mappedText {b1 b2 b3 b4 : Nat} (bytes : ∀ octet ∈ [b1, b2, b3, b4], octet < 256) :
    Denotes (mappedText [b1, b2, b3, b4]) [0, 0, 0, 0, 0, 65535, b1 * 256 + b2, b3 * 256 + b4] := by
  have address : Pieces [dotted [b1, b2, b3, b4]] [b1 * 256 + b2, b3 * 256 + b4] :=
    .dotted (parse4_dotted rfl bytes)
  have prefixed : parseGroup ['F', 'F', 'F', 'F'] = some 65535 := by decide +kernel
  have denotes := Denotes.compact .nil (.cons prefixed address) (by simp)
  rw [join_cons_cons, join_singleton, join_nil] at denotes
  exact denotes

/-- The groups of an IPv4-mapped address: five of zero, one of ones, and two for the four bytes. -/
theorem groupsOf_mapped {address : NetIn6Addr} (mapped : address.bytes.take 12 = IP4_MAP_PRE) :
    ∃ b1 b2 b3 b4 : UInt8, address.bytes.drop 12 = [b1, b2, b3, b4] ∧
      groupsOf address =
        [0, 0, 0, 0, 0, 65535, b1.toNat * 256 + b2.toNat, b3.toNat * 256 + b4.toNat] := by
  have four : (address.bytes.drop 12).length = 4 := by rw [List.length_drop, address.size]
  match split : address.bytes.drop 12, four with
  | [b1, b2, b3, b4], _ =>
    refine ⟨b1, b2, b3, b4, rfl, ?_⟩
    rw [groupsOf, ← List.take_append_drop 12 address.bytes, mapped, split]
    rfl

/-- What `Addr2Str` prints denotes the address, in each of its three forms. -/
theorem addr2Str_denotes (address : NetIn6Addr) :
    ∃ text, addr2Str address = some text ∧ text.length < 64 ∧ Denotes text (groupsOf address) := by
  have even : address.bytes.length = 2 * 8 := address.size
  obtain ⟨-, eight, small⟩ := groupBytes_pairs even
  by_cases mapped : address.bytes.take 12 = IP4_MAP_PRE
  · obtain ⟨b1, b2, b3, b4, split, groups⟩ := groupsOf_mapped mapped
    have bytes : ∀ octet ∈ [b1.toNat, b2.toNat, b3.toNat, b4.toNat], octet < 256 := by
      simp only [List.forall_mem_cons]
      exact ⟨b1.toNat_lt, b2.toNat_lt, b3.toNat_lt, b4.toNat_lt, by simp⟩
    refine ⟨mappedText [b1.toNat, b2.toNat, b3.toNat, b4.toNat], ?_, ?_, ?_⟩
    · simp only [addr2Str, if_pos mapped, split, mappedText, List.map_cons, List.map_nil]
    · have short := dotted_length bytes
      rw [mappedText, List.length_append]
      exact Nat.lt_of_le_of_lt (Nat.add_le_add_left short _) (by decide)
    · rw [groups]
      exact denotes_mappedText bytes
  · obtain ⟨last, looped, shape, short⟩ :=
      AddrBuf.loop_shape 7 (.all []) rfl (rfl : [] ++ pairs (address.bytes.drop 0) = groupsOf address)
    refine ⟨last.text, ?_, by omega, shape.denotes eight small⟩
    rw [addr2Str, if_neg mapped]
    exact congrArg (Option.map (·.text)) looped

/-- The text that `Addr2Str` prints is short, contains two colons in a row at most once,
belongs to the IPv6 grammar and denotes the address, which `GetIpAddr` reads back. -/
theorem addr2Str_faithful (address : NetIn6Addr) :
    ∃ text, addr2Str address = some text ∧ text.length < 64 ∧
      (∀ before behind otherBefore otherBehind, text = before ++ ':' :: ':' :: behind →
        text = otherBefore ++ ':' :: ':' :: otherBehind → before = otherBefore) ∧
      Denotes text (groupsOf address) ∧ inetPton6 text = some address ∧ getIpAddr text = address := by
  obtain ⟨text, isText, short, denotes⟩ := addr2Str_denotes address
  have read := inetPton6_of_denotes denotes
  refine ⟨text, isText, short, fun _ _ _ _ => denotes.compact_unique, denotes, read, ?_⟩
  rw [getIpAddr, if_pos denotes.colon_mem, read]

end OpenTaker
