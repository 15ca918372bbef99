/-
Bodies of all kinds, in chunks of all kinds.

What is before the first boundary is skipped chunk by chunk: a line break at
the beginning of a chunk, and with it all that follows it there up to a
hyphen. No place says that the skipping is going on, so a chunk that begins
before the first hyphen with anything else is read as the first boundary, and
refused (`collect_not_aligned`). Where no chunk begins like that the chunks do
not show, whatever the body is (`collect_aligned`): so two readings of a body,
well formed or not, come to the same (`chunks_agree`).
-/
import UploadDepot.Proofs.Multipart.Selection

namespace UploadDepot.Multipart

variable {boundary : Bytes} {c : UInt8} {bs rest : Bytes} {chunks : List Bytes}

/-- The bytes from the first hyphen on. -/
def fromHyphen (bs : Bytes) : Bytes := bs.dropWhile (· != dash)

/-- Every chunk that begins before the first hyphen begins with a line break, or with that hyphen. -/
def Aligned : List Bytes → Prop
  | [] => True
  | chunk :: chunks =>
    (∀ c ∈ chunk.head?, c = cr ∨ c = lf ∨ c = dash) ∧ (dash ∉ chunk → Aligned chunks)

instance decidableAligned : (chunks : List Bytes) → Decidable (Aligned chunks)
  | [] => .isTrue trivial
  | chunk :: chunks =>
    have := decidableAligned chunks
    inferInstanceAs (Decidable ((∀ c ∈ chunk.head?, c = cr ∨ c = lf ∨ c = dash) ∧
      (dash ∉ chunk → Aligned chunks)))

/-! ## The first hyphen -/

theorem fromHyphen_cons (hc : c ≠ dash) (rest : Bytes) : fromHyphen (c :: rest) = fromHyphen rest :=
  List.dropWhile_cons_of_pos (by simpa using hc)

theorem fromHyphen_dash (rest : Bytes) : fromHyphen (dash :: rest) = dash :: rest :=
  List.dropWhile_cons_of_neg (by simp)

theorem fromHyphen_of_notMem (h : dash ∉ bs) (rest : Bytes) :
    fromHyphen (bs ++ rest) = fromHyphen rest :=
  List.dropWhile_append_of_pos fun c hc => by simpa using ne_of_mem_of_not_mem hc h

theorem fromHyphen_of_mem (h : dash ∈ bs) (rest : Bytes) :
    fromHyphen (bs ++ rest) = fromHyphen bs ++ rest ∧ fromHyphen bs ≠ [] := by
  have hne : fromHyphen bs ≠ [] := by
    intro hnil
    have hall := List.dropWhile_eq_nil_iff.1 hnil dash h
    simp at hall
  refine ⟨?_, hne⟩
  rw [fromHyphen, List.dropWhile_append, if_neg]
  · rfl
  · simpa using h

/-- What begins with the first hyphen, or not at all, begins with no line break. -/
theorem steady_fromHyphen (bs : Bytes) (place : Place) : Steady place (fromHyphen bs) := by
  intro _ c hc
  have hhead := List.head?_dropWhile_not (· != dash) bs
  rw [show (bs.dropWhile (· != dash)).head? = some c from hc] at hhead
  obtain rfl : c = dash := by simpa using hhead
  decide

/-! ## One chunk -/

/-- A line break is skipped with all that follows it up to a hyphen. -/
theorem scanFrom_break {delim : Bytes} (hd : delim ≠ []) (total : Nat) (seen : List Event)
    (hc : c = cr ∨ c = lf) (rest : Bytes) :
    scanFrom delim hd total seen .preamble (c :: rest) =
      scanFrom delim hd total seen .preamble (fromHyphen rest) := by
  cases hdrop : fromHyphen rest with
  | nil =>
    have hadvance : advance delim total .preamble c rest = .ok ([], .preamble, []) := by
      rw [advance, advancePreamble, if_pos hc]
      rw [fromHyphen] at hdrop
      rw [hdrop]
    have hnil : scanFrom delim hd total seen .preamble [] = (seen.reverse, .ok .preamble) := by
      rw [scanFrom]
    rw [hnil, scanFrom]
    split
    · rename_i hfault
      cases hadvance.symm.trans hfault
    · rename_i hok
      cases hadvance.symm.trans hok
      exact hnil
  | cons b left =>
    have hb : b ≠ cr ∧ b ≠ lf := steady_fromHyphen rest .preamble rfl b (by rw [hdrop]; rfl)
    have hadvance : advance delim total .preamble c rest = advance delim total .preamble b left := by
      rw [advance, advance, advancePreamble, advancePreamble, if_pos hc, if_neg (not_or.2 hb)]
      rw [fromHyphen] at hdrop
      rw [hdrop]
    rw [scanFrom, scanFrom]
    split
    · rename_i hfault
      split
      · rename_i hfault'
        cases hfault.symm.trans (hadvance.trans hfault')
        rfl
      · rename_i hok
        cases hfault.symm.trans (hadvance.trans hok)
    · rename_i hok
      split
      · rename_i hfault
        cases hok.symm.trans (hadvance.trans hfault)
      · rename_i hok'
        cases hok.symm.trans (hadvance.trans hok')
        rfl

namespace Reader

variable {r : Reader}

/-- A chunk before the first boundary, that begins with a line break or the first hyphen, is read from its
first hyphen on. -/
theorem readAs_aligned (hr : r.Ready boundary) (hb : cr ∉ boundary)
    (hplace : r.scanner.place = .preamble) {chunk : Bytes}
    (hchunk : ∀ c ∈ chunk.head?, c = cr ∨ c = lf ∨ c = dash) :
    r.ReadAs boundary chunk (fromHyphen chunk) := by
  cases chunk with
  | nil => exact readAs_self hr hb nofun
  | cons c rest =>
    have hscanned := hr.scanned hb (c :: rest).length (steady_fromHyphen (c :: rest) r.scanner.place)
    rcases or_assoc.2 (hchunk c rfl) with hbreak | rfl
    · refine readAs_of_scanned hr ?_
      have hne : c ≠ dash := by
        rintro rfl
        revert hbreak
        decide
      rw [fromHyphen_cons hne] at hscanned ⊢
      rw [hplace] at hscanned ⊢
      rw [scanFrom_break _ _ _ hbreak]
      exact hscanned
    · rw [fromHyphen_dash] at hscanned ⊢
      exact readAs_of_scanned hr hscanned

/-- A chunk before the first boundary, that begins with something else, is refused. -/
theorem feed_not_aligned (hr : r.Ready boundary) (hb : cr ∉ boundary)
    (hplace : r.scanner.place = .preamble) (hcr : c ≠ cr) (hlf : c ≠ lf) (hdash : c ≠ dash)
    (rest : Bytes) : ∃ r' fault, r.feed (c :: rest) = (r', .error fault) := by
  have hnone : r.bytes? (c :: rest) = none := by
    have hstep : byteStep (delimiter boundary) .preamble c = none := by
      have hlen : 4 ≤ (delimiter boundary).length := by simp [delimiter]
      rw [byteStep_preamble _ hcr hlf, byteStep_opening, if_neg (by omega), if_neg (by omega), if_neg]
      exact hdash
    rw [bytes?, hplace, hr.delim, bytewise_cons_none hstep, Option.bind_none]
  have hsteady : Steady r.scanner.place (c :: rest) := by
    rintro - d ⟨⟩
    exact ⟨hcr, hlf⟩
  rcases readAs_self hr hb hsteady with ⟨r', data, hsome, -⟩ | ⟨-, hfault⟩
  · rw [hnone] at hsome
    cases hsome
  · exact hfault

/-- A chunk without a hyphen leaves the reader before the first boundary. -/
theorem feed_skipped (hr : r.Ready boundary) (hb : cr ∉ boundary) (hplace : r.scanner.place = .preamble)
    {chunk : Bytes} (hchunk : ∀ c ∈ chunk.head?, c = cr ∨ c = lf ∨ c = dash) (hdash : dash ∉ chunk) :
    r.feed chunk = (r, .ok []) := by
  have hnil : fromHyphen chunk = [] := by
    have hskipped := fromHyphen_of_notMem hdash []
    rwa [List.append_nil] at hskipped
  have hfed := readAs_aligned hr hb hplace hchunk
  rw [ReadAs, hnil, hr.bytes?_nil] at hfed
  rcases hfed with ⟨r', data, hsame, hfeed, -⟩ | ⟨hnone, -⟩
  · cases hsame
    exact hfeed
  · cases hnone

/-! ## All chunks -/

/-- **Aligned chunks do not show**: the body is read from its first hyphen on, byte by byte. -/
theorem collect_aligned (hr : r.Ready boundary) (hb : cr ∉ boundary)
    (hplace : r.scanner.place = .preamble) (h : Aligned chunks) :
    (r.collect chunks).toOption = r.bytes? (fromHyphen chunks.flatten) := by
  induction chunks with
  | nil => exact hr.bytes?_nil.symm
  | cons chunk chunks ih =>
    obtain ⟨hchunk, hrest⟩ := h
    rw [List.flatten_cons, collect]
    by_cases hdash : dash ∈ chunk
    · obtain ⟨hsplit, hne⟩ := fromHyphen_of_mem hdash chunks.flatten
      rw [hsplit, bytes?_append]
      rcases readAs_aligned hr hb hplace hchunk with
        ⟨r', data, hbytes, hfeed, hready⟩ | ⟨hbytes, r', fault, hfeed⟩
      · obtain ⟨read, hread, hlast⟩ := bytes?_place hbytes
        rw [hr.delim] at hread
        have hplace' : r'.scanner.place ≠ .preamble :=
          hlast ▸ bytewise_ne_preamble hne (steady_fromHyphen chunk _) hread
        rw [hbytes, hfeed, Option.bind_some]
        dsimp only
        rw [← collect_eq hready hb fun he => absurd he hplace']
        cases r'.collect chunks <;> rfl
      · rw [hbytes, hfeed]
        rfl
    · rw [feed_skipped hr hb hplace hchunk hdash, fromHyphen_of_notMem hdash, ← ih (hrest hdash)]
      dsimp only
      cases r.collect chunks <;> rfl

/-- **Other chunks are refused.** -/
theorem collect_not_aligned (hr : r.Ready boundary) (hb : cr ∉ boundary)
    (hplace : r.scanner.place = .preamble) (h : ¬ Aligned chunks) :
    ∃ fault, r.collect chunks = .error fault := by
  induction chunks with
  | nil => exact absurd trivial h
  | cons chunk chunks ih =>
    rw [collect]
    by_cases hchunk : ∀ c ∈ chunk.head?, c = cr ∨ c = lf ∨ c = dash
    · rw [Aligned, not_and_or, Classical.not_imp] at h
      obtain ⟨hdash, hrest⟩ := h.resolve_left (not_not_intro hchunk)
      obtain ⟨fault, hfault⟩ := ih hrest
      rw [feed_skipped hr hb hplace hchunk hdash]
      dsimp only
      exact ⟨fault, by rw [hfault]; rfl⟩
    · cases chunk with
      | nil => exact absurd (by simp) hchunk
      | cons c rest =>
        simp only [List.head?_cons, Option.mem_some_iff, forall_eq', not_or] at hchunk
        obtain ⟨hcr, hlf, hd⟩ := hchunk
        obtain ⟨r', fault, hfeed⟩ := feed_not_aligned hr hb hplace hcr hlf hd rest
        exact ⟨fault, by rw [hfeed]⟩

end Reader

/-- Two readings of a body come to the same: both fail, or both give the same bytes of the file and end in
the same way. -/
def SameReading (a b : Except ReadFault (Reader × Bytes)) : Prop :=
  (∃ fault fault', a = .error fault ∧ b = .error fault') ∨
    ∃ r r' data, a = .ok (r, data) ∧ b = .ok (r', data) ∧ r.found = r'.found ∧
      r.finished = r'.finished ∧ r.close = r'.close

theorem sameReading_of_toOption {a b : Except ReadFault (Reader × Bytes)}
    (h : a.toOption = b.toOption) : SameReading a b := by
  cases a with
  | error fault =>
    cases b with
    | error fault' => exact .inl ⟨fault, fault', rfl, rfl⟩
    | ok result => cases h
  | ok result =>
    cases b with
    | error fault => cases h
    | ok result' =>
      cases h
      exact .inr ⟨_, _, _, rfl, rfl, rfl, rfl, rfl⟩

/-- **The chunks of a body do not show**, whatever its bytes are: if it begins with no line break, or if
both times every chunk that begins before its first hyphen begins with a line break. With another chunk
there the reading fails. -/
theorem chunks_agree (field : String) (hb : cr ∉ boundary) {a b : List Bytes}
    (hsame : a.flatten = b.flatten) :
    ((∀ c ∈ a.flatten.head?, c ≠ cr ∧ c ≠ lf) ∨ Aligned a ∧ Aligned b →
        SameReading ((Reader.start boundary field).collect a) ((Reader.start boundary field).collect b)) ∧
      (¬ Aligned a → ∃ fault, (Reader.start boundary field).collect a = .error fault) := by
  have hready := Reader.ready_start boundary field
  refine ⟨fun h => sameReading_of_toOption ?_, Reader.collect_not_aligned hready hb rfl⟩
  rcases h with hsteady | ⟨ha, hb'⟩
  · have hsteady : Steady .preamble a.flatten := fun _ => hsteady
    rw [Reader.collect_eq hready hb hsteady, Reader.collect_eq hready hb (hsame ▸ hsteady), hsame]
  · rw [Reader.collect_aligned hready hb rfl ha, Reader.collect_aligned hready hb rfl hb', hsame]

/-! ## A line before the first boundary -/

/-- A body of one file, from its first boundary on. -/
def oneFile : Bytes :=
  Bytes.ofText "--b\r\nContent-Disposition: form-data; name=file; filename=a\r\n\r\nD\r\n--b--"

/-- A line that comes in pieces, each beginning with a line break, is skipped as it is in one piece; one
cut after its first byte is refused. -/
theorem chunks_agree_skipped :
    SameReading ((Reader.start (Bytes.ofText "b") "file").collect [Bytes.ofText "\r\nx\r\n" ++ oneFile])
        ((Reader.start (Bytes.ofText "b") "file").collect
          [Bytes.ofText "\r\nx", Bytes.ofText "\r\n", oneFile]) ∧
      ∃ fault, (Reader.start (Bytes.ofText "b") "file").collect
        [Bytes.ofText "\r\nx", Bytes.ofText "y\r\n", oneFile] = .error fault :=
  ⟨(chunks_agree "file" (by decide +kernel) (by decide +kernel)).1
      (.inr ⟨by decide +kernel, by decide +kernel⟩),
    (chunks_agree "file" (by decide +kernel) rfl).2 (by decide +kernel)⟩

/-- **A cut that shows**: with a line break before it the line is skipped and the file is read; in a chunk
of its own the line is refused. -/
theorem preamble_cut_refused :
    let start := Reader.start (Bytes.ofText "b") "file"
    let whole := [Bytes.ofText "\r\nx\r\n" ++ oneFile]
    let cut := [Bytes.ofText "\r\n", Bytes.ofText "x\r\n" ++ oneFile]
    cr ∉ Bytes.ofText "b" ∧ whole.flatten = cut.flatten ∧
      (∃ r, start.collect whole = .ok (r, Bytes.ofText "D") ∧ r.found = true ∧ r.finished = true ∧
        r.close = .ok ()) ∧
      (∃ fault, start.collect cut = .error fault) ∧
      ¬ SameReading (start.collect whole) (start.collect cut) := by
  intro start whole cut
  have hb : cr ∉ Bytes.ofText "b" := by decide +kernel
  have hready : start.Ready (Bytes.ofText "b") := Reader.ready_start _ _
  have haligned : Aligned whole := by decide +kernel
  have hnot : ¬ Aligned cut := by decide +kernel
  have hbytes : (start.bytes? (fromHyphen whole.flatten)).map
      (fun result => (result.2, result.1.found, result.1.finished)) =
        some (Bytes.ofText "D", true, true) := by decide +kernel
  obtain ⟨⟨r, data⟩, hread, hresult⟩ := Option.map_eq_some_iff.1 hbytes
  simp only [Prod.mk.injEq] at hresult
  obtain ⟨rfl, hfound, hfinished⟩ := hresult
  have hok : start.collect whole = .ok (r, Bytes.ofText "D") :=
    Reader.ok_of_toOption ((Reader.collect_aligned hready hb rfl haligned).trans hread)
  obtain ⟨fault, hcut⟩ := Reader.collect_not_aligned hready hb rfl hnot
  refine ⟨hb, by decide +kernel, ⟨r, hok, hfound, hfinished, ?_⟩, ⟨fault, hcut⟩, ?_⟩
  · rw [Reader.close, hfound, hfinished]
    rfl
  · rw [hok, hcut]
    rintro (⟨_, _, hfault, -⟩ | ⟨_, _, _, -, hread', -⟩)
    · cases hfault
    · cases hread'

end UploadDepot.Multipart
