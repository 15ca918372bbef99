/-
The incremental reading of a multipart body: bytes in, events out.

A body arrives in chunks cut anywhere. Between two chunks only the `Place`
is kept: where in the body the reading stands, and, inside the data of a
part, the bytes held back because they may be the beginning of the
delimiter that ends the part. Everything else is given out as soon as it is
certain, at the latest at the end of its chunk.
-/
import UploadDepot.Multipart.Event

namespace UploadDepot.Multipart

/-- The carriage return. -/
abbrev cr : UInt8 := 0x0D
/-- The line feed. -/
abbrev lf : UInt8 := 0x0A
/-- The hyphen. -/
abbrev dash : UInt8 := 0x2D
/-- The colon. -/
abbrev colon : UInt8 := 0x3A
/-- The space. -/
abbrev space : UInt8 := 0x20

/-- What ends the data of a part: a line break, two hyphens and the boundary. -/
def delimiter (boundary : Bytes) : Bytes := [cr, lf, dash, dash] ++ boundary

/-- Where in the body the reading stands. -/
inductive Place where
  /-- Before the first boundary. -/
  | preamble
  /-- In the first boundary, so many of its bytes read. -/
  | opening (matched : Nat)
  /-- After one of the two hyphens that make the first boundary the last. -/
  | closing
  /-- At the first byte of a header line. -/
  | nameStart
  /-- Inside a header name. -/
  | name
  /-- After the colon, before the value. -/
  | valueStart
  /-- Inside a header value. -/
  | value
  /-- After the carriage return of a header line. -/
  | valueEnd
  /-- After the carriage return of the empty line. -/
  | headersEnd
  /-- In the data, with the bytes that may begin the delimiter. -/
  | data (held : Bytes)
  /-- After the last boundary; whatever comes is skipped. -/
  | epilogue
  deriving DecidableEq, Repr

/-- The result of one advance: the events, the new place and the bytes left in the chunk. -/
abbrev Advance := Except Fault (List Event × Place × Bytes)

/-- The bytes of a header name: letters, digits and the marks of a token. -/
def isTokenByte (b : UInt8) : Bool :=
  (0x30 ≤ b && b ≤ 0x39) || (0x41 ≤ b && b ≤ 0x5A) || (0x5E ≤ b && b ≤ 0x7A)
    || b == 0x21 || (0x23 ≤ b && b ≤ 0x27) || b == 0x2A || b == 0x2B || b == dash || b == 0x2E
    || b == 0x7C || b == 0x7E

/-- At most one event: an empty fragment is not an event. -/
def fragment (make : Bytes → Event) (bs : Bytes) : List Event :=
  if bs.isEmpty then [] else [make bs]

/-- The position, in a chunk of `total` bytes, at which `rest` is what is left. -/
def position (total : Nat) (rest : Bytes) : Nat := total - rest.length

/-- One byte of the first boundary, which is the delimiter without its line break. After it come
CR LF, which begin a part, or a hyphen. -/
def advanceOpening (delim : Bytes) (total matched : Nat) (c : UInt8) (rest : Bytes) : Advance :=
  if matched + 2 = delim.length then
    if c = dash then .ok ([], .closing, rest)
    else if c = cr then .ok ([], .opening (matched + 1), rest)
    else .error (.boundaryWithoutReturn (position total (c :: rest)))
  else if matched + 1 = delim.length then
    if c = lf then .ok ([.partBegin], .nameStart, rest)
    else .error (.boundaryWithoutFeed (position total (c :: rest)))
  else
    let expected := delim.getD (matched + 2) 0
    if c = expected then .ok ([], .opening (matched + 1), rest)
    else .error (.boundaryByte expected c (matched + 2))

/-- A line break before the first boundary is skipped together with all that follows it in the
chunk up to a hyphen. -/
def advancePreamble (delim : Bytes) (total : Nat) (c : UInt8) (rest : Bytes) : Advance :=
  if c = cr ∨ c = lf then
    match rest.dropWhile (· != dash) with
    | [] => .ok ([], .preamble, [])
    | b :: rest' => advanceOpening delim total 0 b rest'
  else advanceOpening delim total 0 c rest

/-- A header name up to its colon, or to the end of the chunk. -/
def advanceName (total : Nat) (bs : Bytes) : Advance :=
  let token := bs.takeWhile isTokenByte
  match bs.dropWhile isTokenByte with
  | [] => .ok (fragment .headerName token, .name, [])
  | b :: rest =>
    if b = colon then .ok (fragment .headerName token, .valueStart, rest)
    else .error (.headerNameByte b (position total (b :: rest)))

/-- A header line begins: with CR the headers are at their end, otherwise with a name. -/
def advanceNameStart (total : Nat) (c : UInt8) (rest : Bytes) : Advance :=
  if c = cr then .ok ([], .headersEnd, rest)
  else if c = colon then .error (.emptyHeaderName (position total (c :: rest)))
  else advanceName total (c :: rest)

/-- A header value up to its CR, or to the end of the chunk. -/
def advanceValue (bs : Bytes) : Advance :=
  let text := bs.takeWhile (· != cr)
  match bs.dropWhile (· != cr) with
  | [] => .ok (fragment .headerValue text, .value, [])
  | _ :: rest => .ok (fragment .headerValue text ++ [.headerEnd], .valueEnd, rest)

/-- The spaces before a header value are skipped. -/
def advanceValueStart (bs : Bytes) : Advance :=
  match bs.dropWhile (· == space) with
  | [] => .ok ([], .valueStart, [])
  | b :: rest => advanceValue (b :: rest)

/-- The data of a part with nothing held back. A whole delimiter in the chunk is found first.
Without one, the data can end in the beginning of a delimiter, which is looked for among as many
last bytes as the delimiter has. -/
def advanceData (delim bs : Bytes) : Advance :=
  match Bytes.indexOf? delim bs with
  | some n => .ok (fragment .data (bs.take n), .data delim, bs.drop (n + delim.length))
  | none =>
    let sure := bs.length - delim.length
    let late := bs.drop sure
    let slice := bs.take sure ++ late.takeWhile (· != cr)
    match late.dropWhile (· != cr) with
    | [] => .ok (fragment .data slice, .data [], [])
    | _ :: rest => .ok (fragment .data slice, .data [cr], rest)

/-- A byte after held-back bytes. They grow as long as they begin a delimiter with CR LF, which
begins the next part, or one with two hyphens, which ends the body; otherwise they are data, and the
search goes on at the byte that does not fit. -/
def advanceHeld (delim held : Bytes) (c : UInt8) (rest : Bytes) : Advance :=
  let grown := held ++ [c]
  if grown = delim ++ [cr, lf] then .ok ([.partEnd, .partBegin], .nameStart, rest)
  else if grown = delim ++ [dash, dash] then .ok ([.partEnd], .epilogue, rest)
  else if grown.isPrefixOf (delim ++ [cr, lf]) || grown.isPrefixOf (delim ++ [dash, dash]) then
    .ok ([], .data grown, rest)
  else do
    let (events, place, rest) ← advanceData delim (c :: rest)
    .ok (.data held :: events, place, rest)

/-- Reads on from a place: one byte at least. -/
def advance (delim : Bytes) (total : Nat) : Place → UInt8 → Bytes → Advance
  | .preamble, c, rest => advancePreamble delim total c rest
  | .opening matched, c, rest => advanceOpening delim total matched c rest
  | .closing, c, rest =>
    if c = dash then .ok ([], .epilogue, rest)
    else .error (.boundaryWithoutDash (position total (c :: rest)))
  | .nameStart, c, rest => advanceNameStart total c rest
  | .name, c, rest => advanceName total (c :: rest)
  | .valueStart, c, rest => advanceValueStart (c :: rest)
  | .value, c, rest => advanceValue (c :: rest)
  | .valueEnd, c, rest =>
    if c = lf then .ok ([], .nameStart, rest) else .error (.headerWithoutFeed c)
  | .headersEnd, c, rest =>
    if c = lf then .ok ([.headersFinished], .data [], rest) else .error (.headersWithoutFeed c)
  | .data held, c, rest =>
    if held.isEmpty then advanceData delim (c :: rest) else advanceHeld delim held c rest
  | .epilogue, _, _ => .ok ([], .epilogue, [])

/-! ## Every advance reads at least one byte -/

theorem length_dropWhile_le {p : UInt8 → Bool} (bs : Bytes) :
    (bs.dropWhile p).length ≤ bs.length :=
  (List.dropWhile_sublist p).length_le

theorem advanceOpening_length {delim total matched c rest events place rest'}
    (h : advanceOpening delim total matched c rest = .ok (events, place, rest')) :
    rest'.length ≤ rest.length := by
  unfold advanceOpening at h
  split at h
  · split at h
    · cases h; exact Nat.le_refl _
    · split at h
      · cases h; exact Nat.le_refl _
      · cases h
  · split at h
    · split at h
      · cases h; exact Nat.le_refl _
      · cases h
    · dsimp only at h
      split at h
      · cases h; exact Nat.le_refl _
      · cases h

theorem advancePreamble_length {delim total c rest events place rest'}
    (h : advancePreamble delim total c rest = .ok (events, place, rest')) :
    rest'.length ≤ rest.length := by
  unfold advancePreamble at h
  split at h
  · split at h
    · cases h; exact Nat.zero_le _
    · rename_i b left heq
      have := length_dropWhile_le (p := (· != dash)) rest
      rw [heq, List.length_cons] at this
      have := advanceOpening_length h
      omega
  · exact advanceOpening_length h

theorem advanceName_length {total bs events place rest'}
    (h : advanceName total bs = .ok (events, place, rest')) (hb : bs ≠ []) :
    rest'.length < bs.length := by
  unfold advanceName at h
  dsimp only at h
  split at h
  · cases h; exact List.length_pos_iff.2 hb
  · rename_i b left heq
    have := length_dropWhile_le (p := isTokenByte) bs
    rw [heq, List.length_cons] at this
    split at h
    · cases h; omega
    · cases h

theorem advanceValue_length {bs events place rest'}
    (h : advanceValue bs = .ok (events, place, rest')) (hb : bs ≠ []) :
    rest'.length < bs.length := by
  unfold advanceValue at h
  dsimp only at h
  split at h
  · cases h; exact List.length_pos_iff.2 hb
  · rename_i b left heq
    have := length_dropWhile_le (p := (· != cr)) bs
    rw [heq, List.length_cons] at this
    cases h; omega

theorem advanceValueStart_length {bs events place rest'}
    (h : advanceValueStart bs = .ok (events, place, rest')) (hb : bs ≠ []) :
    rest'.length < bs.length := by
  unfold advanceValueStart at h
  split at h
  · cases h; exact List.length_pos_iff.2 hb
  · rename_i b left heq
    have := length_dropWhile_le (p := (· == space)) bs
    rw [heq, List.length_cons] at this
    have := advanceValue_length h (List.cons_ne_nil _ _)
    rw [List.length_cons] at this
    omega

theorem advanceData_length {delim bs events place rest'}
    (h : advanceData delim bs = .ok (events, place, rest')) (hd : delim ≠ []) (hb : bs ≠ []) :
    rest'.length < bs.length := by
  have hbl := List.length_pos_iff.2 hb
  have hdl := List.length_pos_iff.2 hd
  unfold advanceData at h
  split at h
  · cases h
    rw [List.length_drop]
    omega
  · dsimp only at h
    split at h
    · cases h; exact hbl
    · rename_i b left heq
      have := length_dropWhile_le (p := (· != cr)) (bs.drop (bs.length - delim.length))
      rw [heq, List.length_cons, List.length_drop] at this
      cases h; omega

theorem advanceHeld_length {delim held c rest events place rest'}
    (h : advanceHeld delim held c rest = .ok (events, place, rest')) (hd : delim ≠ []) :
    rest'.length < (c :: rest).length := by
  unfold advanceHeld at h
  dsimp only at h
  split at h
  · cases h; simp
  · split at h
    · cases h; simp
    · split at h
      · cases h; simp
      · cases hdata : advanceData delim (c :: rest) with
        | error f => simp [hdata, bind, Except.bind] at h
        | ok r =>
          simp only [hdata, bind, Except.bind] at h
          cases h
          exact advanceData_length hdata hd (List.cons_ne_nil _ _)

theorem advance_length {delim total place c rest events place' rest'} (hd : delim ≠ [])
    (h : advance delim total place c rest = .ok (events, place', rest')) :
    rest'.length < (c :: rest).length := by
  have hc : c :: rest ≠ [] := List.cons_ne_nil _ _
  cases place with
  | preamble => exact Nat.lt_succ_of_le (advancePreamble_length h)
  | opening matched => exact Nat.lt_succ_of_le (advanceOpening_length h)
  | closing =>
    simp only [advance] at h
    split at h
    · cases h; simp
    · cases h
  | nameStart =>
    simp only [advance, advanceNameStart] at h
    split at h
    · cases h; simp
    · split at h
      · cases h
      · exact advanceName_length h hc
  | name => exact advanceName_length h hc
  | valueStart => exact advanceValueStart_length h hc
  | value => exact advanceValue_length h hc
  | valueEnd =>
    simp only [advance] at h
    split at h
    · cases h; simp
    · cases h
  | headersEnd =>
    simp only [advance] at h
    split at h
    · cases h; simp
    · cases h
  | data held =>
    simp only [advance] at h
    split at h
    · exact advanceData_length h hd hc
    · exact advanceHeld_length h hd
  | epilogue =>
    simp only [advance] at h
    cases h; simp

/-! ## Chunks -/

/-- A scanner: the delimiter it looks for and the place it has reached. -/
structure Scanner where
  delim : Bytes
  delim_ne : delim ≠ []
  place : Place

/-- A scanner before the first byte of a body. -/
def Scanner.start (boundary : Bytes) : Scanner :=
  { delim := delimiter boundary, delim_ne := by simp [delimiter], place := .preamble }

/-- Reads `rest`, the end of a chunk of `total` bytes, after the events `seen` (latest first). A
fault ends the reading; the events before it stand. -/
def scanFrom (delim : Bytes) (hd : delim ≠ []) (total : Nat) (seen : List Event) (place : Place)
    (rest : Bytes) : List Event × Except Fault Place :=
  match rest with
  | [] => (seen.reverse, .ok place)
  | c :: rest =>
    match h : advance delim total place c rest with
    | .error fault => (seen.reverse, .error fault)
    | .ok (events, place', rest') =>
      have : rest'.length < (c :: rest).length := advance_length hd h
      scanFrom delim hd total (events.reverse ++ seen) place' rest'
termination_by rest.length
decreasing_by exact this

/-- The events of one chunk, and the scanner after it or the fault that ended the reading. -/
def Scanner.scan (s : Scanner) (chunk : Bytes) : List Event × Except Fault Scanner :=
  let (events, place) := scanFrom s.delim s.delim_ne chunk.length [] s.place chunk
  (events, place.map fun place => { s with place })

end UploadDepot.Multipart
