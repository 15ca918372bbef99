/-
Where a stream is given up.

Feeding a chunk fails exactly when the bytes so far are to be refused
(`Terms.refusal`, `Sound.feed_refusal`). So of a stream the pieces are read up
to the first with which the bytes are to be refused, and no further
(`Sound.read_refused`). With pieces of one size two of them can be that: the
one with which enough has come to tell the type, and the one that crosses the
limit of the size; the earlier decides, and the size in the same piece
(`ingest_stops`).
-/
import Mathlib.Algebra.Order.Floor.Div
import UploadDepot.Proofs.Bytes
import UploadDepot.Proofs.Upload.Pipeline
import UploadDepot.Store.FileStore

namespace UploadDepot.Upload

open Sha256 (hexOf)

/-- Why a file that begins with these bytes is to be refused, as far as they tell. -/
def Terms.refusal (t : Terms) (data : Bytes) : Option UploadError :=
  if t.maxSize < data.length then some (.tooLarge t.maxSize)
  else if t.sniffBytes ≤ data.length ∧ t.admits data = false then
    some (.unsupportedType (t.typeOf data))
  else none

/-! ## Reading up to a refusal -/

namespace Candidate

variable {c : Candidate} {chunk : Bytes} {chunks : List Bytes}

/-- How feeding ends, by the bytes so far. -/
def ended : Option UploadError → Except Failure Unit
  | none => .ok ()
  | some e => .error (.told e)

/-- **One chunk** is refused if, and only if, the bytes so far are to be refused. -/
theorem Sound.feed_refusal (h : c.Sound) (hn : 0 ≤ c.terms.sniffBytes) (chunk : Bytes) :
    (c.feed chunk).2 = ended (c.terms.refusal (c.content ++ chunk)) := by
  have hsize := length_content_taking c h chunk
  unfold Terms.refusal
  by_cases hlarge : c.terms.maxSize < (c.content ++ chunk).length
  · rw [if_pos hlarge, Candidate.feed]
    dsimp only
    rw [hsize, if_pos hlarge]
    rfl
  rw [if_neg hlarge]
  have htyped : c.mime = none → c.terms.sniff (c.headWith chunk) = c.terms.typeOf (c.content ++ chunk) :=
    fun hmime => by rw [h.headWith_eq hmime hn, Terms.typeOf]
  have hfull : c.mime = none → ((c.terms.sniffBytes ≤ (c.headWith chunk).length) ↔
      c.terms.sniffBytes ≤ (c.content ++ chunk).length) := by
    intro hmime
    rw [h.headWith_eq hmime hn, List.length_take]
    omega
  have hfed := feed_fed h.isOpen chunk
  generalize c.feed chunk = r at hfed ⊢
  cases hfed with
  | tooLarge hlt => exact absurd (hsize ▸ hlt) hlarge
  | known _ hmime =>
    obtain ⟨m, hm⟩ := Option.isSome_iff_exists.1 hmime
    obtain ⟨hlen, htype⟩ := h.told m hm hn
    have hadmits : c.terms.admits (c.content ++ chunk) = true := by
      rw [Terms.admits, typeOf_append hlen, ← htype, h.admitted m hm]
    rw [if_neg fun hbad => Bool.false_ne_true (hbad.2.symm.trans hadmits)]
    rfl
  | pending _ hmime hshort =>
    rw [if_neg fun hbad => Int.not_le.2 hshort ((hfull hmime).2 hbad.1)]
    rfl
  | admitted _ hmime _ hallowed =>
    rw [htyped hmime] at hallowed
    rw [if_neg fun hbad => Bool.false_ne_true (hbad.2.symm.trans hallowed)]
    rfl
  | refused hmime hlen hallowed =>
    rw [htyped hmime] at hallowed ⊢
    rw [if_pos ⟨(hfull hmime).1 hlen, hallowed⟩]
    rfl

/-- A chunk with which the bytes are not to be refused is taken. -/
theorem Sound.feed_taken (h : c.Sound) (hn : 0 ≤ c.terms.sniffBytes)
    (htaken : c.terms.refusal (c.content ++ chunk) = none) :
    ∃ c', c.feed chunk = (c', .ok ()) ∧ c'.Sound ∧ c'.terms = c.terms ∧
      c'.content = c.content ++ chunk := by
  have hended := h.feed_refusal hn chunk
  rw [htaken] at hended
  rcases h.feed chunk with ⟨c', hfeed, hsound, hterms, hcontent, -⟩ | ⟨c', e, hfeed, -⟩
  · exact ⟨c', hfeed, hsound, hterms, hcontent⟩
  · rw [hfeed] at hended
    cases hended

/-- A stream is read to its end, if the bytes are at no piece to be refused. -/
theorem Sound.read_taken (h : c.Sound) (hn : 0 ≤ c.terms.sniffBytes) (hchunks : [] ∉ chunks)
    (htaken : ∀ k < chunks.length,
      c.terms.refusal (c.content ++ (chunks.take (k + 1)).flatten) = none) (reads : Nat) :
    ∃ c', c.read (chunks.map Read.bytes) reads = (c', reads + chunks.length + 1, .ok ()) ∧
      c'.Sound ∧ c'.terms = c.terms ∧ c'.content = c.content ++ chunks.flatten := by
  induction chunks generalizing c reads with
  | nil => exact ⟨c, rfl, h, rfl, (List.append_nil _).symm⟩
  | cons chunk chunks ih =>
    obtain ⟨b, bs, rfl⟩ := List.exists_cons_of_ne_nil fun he => hchunks (he ▸ List.mem_cons_self)
    have hfirst := htaken 0 (Nat.succ_pos _)
    rw [List.take_succ_cons, List.take_zero, List.flatten_singleton] at hfirst
    obtain ⟨c', hfeed, hsound, hterms, hcontent⟩ := h.feed_taken hn hfirst
    have hrest := ih hsound (hterms ▸ hn) (fun hm => hchunks (List.mem_cons_of_mem _ hm))
      (fun k hk => by
        rw [hterms, hcontent, List.append_assoc]
        exact htaken (k + 1) (Nat.succ_lt_succ hk))
      (reads + 1)
    rw [hterms, hcontent, List.append_assoc] at hrest
    rw [List.map_cons, Candidate.read, hfeed, List.length_cons, Nat.add_comm chunks.length, ← Nat.add_assoc]
    exact hrest

/-- A stream is read up to the first piece with which the bytes are to be refused. -/
theorem Sound.read_refused (h : c.Sound) (hn : 0 ≤ c.terms.sniffBytes) (hchunks : [] ∉ chunks)
    {k : Nat} (hk : k < chunks.length)
    (htaken : ∀ j < k, c.terms.refusal (c.content ++ (chunks.take (j + 1)).flatten) = none)
    {e : UploadError} (he : c.terms.refusal (c.content ++ (chunks.take (k + 1)).flatten) = some e)
    (reads : Nat) :
    ∃ c', c.read (chunks.map Read.bytes) reads = (c', reads + k + 1, .error (.told e)) := by
  induction chunks generalizing c reads k with
  | nil => exact absurd hk (Nat.not_lt_zero _)
  | cons chunk chunks ih =>
    obtain ⟨b, bs, rfl⟩ := List.exists_cons_of_ne_nil fun he => hchunks (he ▸ List.mem_cons_self)
    cases k with
    | zero =>
      have hended := h.feed_refusal hn (b :: bs)
      rw [List.take_succ_cons, List.take_zero, List.flatten_singleton] at he
      rw [he] at hended
      cases hfeed : c.feed (b :: bs) with
      | mk c' outcome =>
        obtain rfl : outcome = .error (.told e) := by rwa [hfeed] at hended
        exact ⟨c', by rw [List.map_cons, Candidate.read, hfeed]⟩
    | succ k =>
      have hfirst := htaken 0 (Nat.succ_pos _)
      rw [List.take_succ_cons, List.take_zero, List.flatten_singleton] at hfirst
      obtain ⟨c', hfeed, hsound, hterms, hcontent⟩ := h.feed_taken hn hfirst
      obtain ⟨c'', hread⟩ := ih hsound (hterms ▸ hn)
        (fun hm => hchunks (List.mem_cons_of_mem _ hm)) (Nat.lt_of_succ_lt_succ hk)
        (fun j hj => by
          rw [hterms, hcontent, List.append_assoc]
          exact htaken (j + 1) (Nat.succ_lt_succ hj))
        (by
          rw [hterms, hcontent, List.append_assoc]
          exact he)
        (reads + 1)
      refine ⟨c'', ?_⟩
      rw [List.map_cons, Candidate.read, hfeed]
      dsimp only
      rw [hread, Nat.add_right_comm reads 1 k]
      rfl

end Candidate

/-! ## Pieces of one size -/

section Pieces

variable {t : Terms} {m n c : Nat} {data : Bytes}

theorem Read.ofBytes_natCast (hc : 0 < c) (data : Bytes) :
    Read.ofBytes c data = (data.pieces c).map Read.bytes := by
  rw [Read.ofBytes, if_neg (by omega), if_neg (by omega), Int.toNat_natCast]

/-- So many reads bring so many bytes, as long as there are some. -/
theorem Read.consumed_ofBytes (hc : 0 < c) (data : Bytes) (taken : Nat) :
    Read.consumed (Read.ofBytes c data) taken = min data.length (c * taken) := by
  rw [Read.consumed, Read.ofBytes_natCast hc, ← List.map_take, List.flatMap_map, List.flatMap_id',
    Bytes.flatten_take_pieces hc, List.length_take, Nat.min_comm, Nat.mul_comm]

/-- What the first bytes of a file tell. -/
theorem Terms.refusal_take (hm : t.maxSize = m) (hn : t.sniffBytes = n) (data : Bytes) (k : Nat) :
    t.refusal (data.take k) =
      if m < min k data.length then some (.tooLarge m)
      else if n ≤ min k data.length ∧ t.admits data = false then some (.unsupportedType (t.typeOf data))
      else none := by
  have htype : n ≤ min k data.length → t.typeOf (data.take k) = t.typeOf data := by
    intro hle
    rw [Terms.typeOf, Terms.typeOf, hn, Int.toNat_natCast, List.take_take, Nat.min_eq_left (by omega)]
  simp only [Terms.refusal, hm, hn, List.length_take, Int.ofNat_lt, Int.ofNat_le]
  by_cases hle : n ≤ min k data.length
  · rw [Terms.admits, Terms.admits, htype hle]
  · simp only [hle, false_and, if_false]

/-- What the first pieces of a file tell. -/
theorem Terms.refusal_pieces (hm : t.maxSize = m) (hn : t.sniffBytes = n) (hc : 0 < c) (data : Bytes)
    (k : Nat) :
    t.refusal (({ terms := t } : Candidate).content ++ ((data.pieces c).take k).flatten) =
      if m < min (k * c) data.length then some (.tooLarge m)
      else if n ≤ min (k * c) data.length ∧ t.admits data = false then
        some (.unsupportedType (t.typeOf data))
      else none := by
  rw [← Terms.refusal_take hm hn, ← Bytes.flatten_take_pieces hc]
  rfl

/-- The first piece with which enough has come to tell the type, one at least. -/
theorem telling_le (hc : 0 < c) {k : Nat} : max 1 (n ⌈/⌉ c) ≤ k ↔ 1 ≤ k ∧ n ≤ c * k := by
  rw [max_le_iff, ceilDiv_le_iff_le_mul hc]

namespace Candidate

/-- A stream is given up for its type with the piece with which enough has come to tell it. -/
theorem read_unsupportedType (hm : t.maxSize = m) (hn : t.sniffBytes = n) (hc : 0 < c)
    (hadmits : t.admits data = false) (hne : data ≠ []) (hlong : n ≤ data.length)
    (hlimit : min data.length (c * max 1 (n ⌈/⌉ c)) ≤ m) :
    ∃ c', read { terms := t } (Read.ofBytes c data) 0 =
      (c', max 1 (n ⌈/⌉ c), .error (.told (.unsupportedType (t.typeOf data)))) := by
  have hpos := List.length_pos_iff.2 hne
  have htelling {k : Nat} := telling_le (n := n) hc (k := k)
  generalize max 1 (n ⌈/⌉ c) = telling at hlimit htelling ⊢
  obtain ⟨hone, henough⟩ := htelling.1 (Nat.le_refl _)
  obtain ⟨k, rfl⟩ := Nat.exists_eq_add_of_le' hone
  have hearly : ∀ j < k, ¬ n ≤ (j + 1) * c := by
    intro j hj hle
    have := htelling.2 ⟨Nat.succ_pos j, by rwa [Nat.mul_comm] at hle⟩
    omega
  have hk : k * c < data.length := by
    cases k with
    | zero => omega
    | succ j =>
      have := hearly j (Nat.lt_succ_self j)
      omega
  rw [Nat.mul_comm] at hlimit henough
  rw [Read.ofBytes_natCast hc, ← Nat.zero_add (k + 1), ← Nat.add_assoc]
  refine (Sound.fresh t).read_refused (hn ▸ Int.natCast_nonneg n) (Bytes.nil_notMem_pieces hc data)
    ((Bytes.lt_length_pieces hc).2 hk) (fun j hj => ?_) ?_ 0
  · have hshort : (j + 1) * c ≤ (k + 1) * c := Nat.mul_le_mul_right c (by omega)
    have := hearly j hj
    rw [Terms.refusal_pieces hm hn hc, if_neg (by omega), if_neg (by omega)]
  · rw [Terms.refusal_pieces hm hn hc, if_neg (by omega), if_pos ⟨by omega, hadmits⟩]

/-- A stream is given up for its size with the piece that crosses the limit, unless it has been given up
before. -/
theorem read_tooLarge (hm : t.maxSize = m) (hn : t.sniffBytes = n) (hc : 0 < c)
    (hlate : ¬ (t.admits data = false ∧ min data.length (c * max 1 (n ⌈/⌉ c)) ≤ m))
    (hlarge : m < data.length) :
    ∃ c', read { terms := t } (Read.ofBytes c data) 0 =
      (c', m / c + 1, .error (.told (.tooLarge m))) := by
  have hcrossed : m < (m / c + 1) * c := by
    rw [Nat.mul_comm]
    exact Nat.lt_mul_div_succ m hc
  have hwithin : ∀ j, j < m / c → (j + 1) * c ≤ m := fun j hj =>
    (Nat.mul_le_mul_right c hj).trans (Nat.div_mul_le_self m c)
  have hk : m / c * c < data.length := (Nat.div_mul_le_self m c).trans_lt hlarge
  rw [Read.ofBytes_natCast hc, ← Nat.zero_add (m / c + 1), ← Nat.add_assoc]
  refine (Sound.fresh t).read_refused (hn ▸ Int.natCast_nonneg n) (Bytes.nil_notMem_pieces hc data)
    ((Bytes.lt_length_pieces hc).2 hk) (fun j hj => ?_) ?_ 0
  · have hle := hwithin j hj
    rw [Terms.refusal_pieces hm hn hc, if_neg (by omega), if_neg]
    rintro ⟨htold, hadmits⟩
    -- Then the type would have been told within the limit.
    have htelling : max 1 (n ⌈/⌉ c) ≤ j + 1 :=
      (telling_le hc).2 ⟨Nat.succ_pos j, by rw [Nat.mul_comm]; omega⟩
    have := Nat.mul_le_mul_left c htelling
    rw [Nat.mul_comm c (j + 1)] at this
    exact hlate ⟨hadmits, by omega⟩
  · rw [Terms.refusal_pieces hm hn hc, if_pos (by omega)]

/-- A stream is read to its end, if it is not too large and no type is told that is not admitted. -/
theorem read_whole (hm : t.maxSize = m) (hn : t.sniffBytes = n) (hc : 0 < c)
    (hfits : data.length ≤ m) (hfine : t.admits data = true ∨ data = [] ∨ data.length < n) :
    ∃ c' taken, read { terms := t } (Read.ofBytes c data) 0 = (c', taken, .ok ()) ∧ c'.Sound ∧
      c'.terms = t ∧ c'.content = data ∧ data.length ≤ c * taken := by
  have hend := Bytes.length_le_pieces hc data
  have htaken : ∀ k < (data.pieces c).length, t.refusal (({ terms := t } : Candidate).content ++
      ((data.pieces c).take (k + 1)).flatten) = none := by
    intro k hk
    have hk := (Bytes.lt_length_pieces hc).1 hk
    rw [Terms.refusal_pieces hm hn hc, if_neg (by omega), if_neg]
    rintro ⟨htold, hadmits⟩
    rcases hfine with hfine | rfl | hshort
    · exact Bool.false_ne_true (hadmits.symm.trans hfine)
    · exact Nat.not_lt_zero _ hk
    · omega
  obtain ⟨c', hread, hsound, hterms, hcontent⟩ := (Sound.fresh t).read_taken
    (hn ▸ Int.natCast_nonneg n) (Bytes.nil_notMem_pieces hc data) htaken 0
  refine ⟨c', _, by rw [Read.ofBytes_natCast hc, hread], hsound, hterms, ?_, ?_⟩
  · rw [hcontent, Bytes.flatten_pieces hc]
    rfl
  · rw [Nat.zero_add, Nat.mul_add, Nat.mul_comm]
    omega

end Candidate

end Pieces

/-! ## Whole uploads -/

/-- An attempt that was given up, and how much of the stream had been read. -/
structure Attempt.GivenUp (a : Attempt) (e : UploadError) (reads : List Read) (consumed : Nat) : Prop where
  result : a.result = .error (.told e)
  consumed : Read.consumed reads a.taken = consumed

namespace Pipeline

variable {Q : Type} {A : Q → Type} {p : Pipeline Q A} {declared : Option Int} {reads : List Read}
  {m n c : Nat} {data : Bytes}

/-- A declared size within the limit changes nothing. -/
theorem ingest_of_le (h : ∀ size ∈ declared, size ≤ p.terms.maxSize) (reads : List Read) :
    p.ingest declared reads = p.conclude (Candidate.read { terms := p.terms } reads 0) := by
  rw [ingest, candidate_of_le h]

/-- A declared size over the limit is refused without a read. -/
theorem ingest_of_not_le (h : ¬ ∀ size ∈ declared, size ≤ p.terms.maxSize) (reads : List Read) :
    p.ingest declared reads = .done { result := .error (.told (.tooLarge p.terms.maxSize)) } := by
  rw [ingest, candidate_of_not_le h]

/-- The type is told from a piece, or at the end of a short stream. -/
theorem conclude_unsupportedType (hm : p.terms.maxSize = m) (hn : p.terms.sniffBytes = n) (hc : 0 < c)
    (hadmits : p.terms.admits data = false)
    (hlimit : min data.length (c * max 1 (n ⌈/⌉ c)) ≤ m) :
    ∃ a, p.conclude (Candidate.read { terms := p.terms } (Read.ofBytes c data) 0) = .done a ∧
      a.GivenUp (.unsupportedType (p.terms.typeOf data)) (Read.ofBytes c data)
        (min data.length (c * max 1 (n ⌈/⌉ c))) := by
  by_cases hshort : data = [] ∨ data.length < n
  · have hall : data.length ≤ c * max 1 (n ⌈/⌉ c) := by
      have henough := ((telling_le hc).1 (Nat.le_refl (max 1 (n ⌈/⌉ c)))).2
      rcases hshort with rfl | hlt
      · exact Nat.zero_le _
      · omega
    rw [Nat.min_eq_left hall] at hlimit ⊢
    obtain ⟨c', taken, hread, hsound, hterms, hcontent, htaken⟩ :=
      Candidate.read_whole hm hn hc hlimit (.inr hshort)
    rw [hread]
    rcases publish_cases hsound taken with ⟨a, mime, hresult, hcount, -, htype, hpublish⟩ |
      ⟨mime, report, htyped, -, -⟩
    · have htype := htype (hterms ▸ hn ▸ Int.natCast_nonneg n)
      rw [hterms, hcontent] at htype
      refine ⟨a, hpublish p, htype ▸ hresult, ?_⟩
      rw [Read.consumed_ofBytes hc, hcount, Nat.min_eq_left htaken]
    · have hfine := htyped.admits (hterms ▸ hn ▸ Int.natCast_nonneg n)
      rw [hterms, hcontent, hadmits] at hfine
      cases hfine
  · obtain ⟨hne, hlong⟩ := not_or.1 hshort
    obtain ⟨c', hread⟩ :=
      Candidate.read_unsupportedType hm hn hc hadmits hne (Nat.not_lt.1 hlong) hlimit
    rw [hread]
    exact ⟨_, rfl, rfl, Read.consumed_ofBytes hc data _⟩

theorem conclude_tooLarge (hm : p.terms.maxSize = m) (hn : p.terms.sniffBytes = n) (hc : 0 < c)
    (hlate : ¬ (p.terms.admits data = false ∧ min data.length (c * max 1 (n ⌈/⌉ c)) ≤ m))
    (hlarge : m < data.length) :
    ∃ a, p.conclude (Candidate.read { terms := p.terms } (Read.ofBytes c data) 0) = .done a ∧
      a.GivenUp (.tooLarge m) (Read.ofBytes c data) (min data.length (c * (m / c + 1))) := by
  obtain ⟨c', hread⟩ := Candidate.read_tooLarge hm hn hc hlate hlarge
  rw [hread]
  exact ⟨_, rfl, rfl, Read.consumed_ofBytes hc data _⟩

theorem conclude_whole (hm : p.terms.maxSize = m) (hn : p.terms.sniffBytes = n) (hc : 0 < c)
    (hadmits : p.terms.admits data = true) (hfits : data.length ≤ m) :
    ∃ report : Log.Logged (Except Store.Fault Bool) → Attempt,
      p.conclude (Candidate.read { terms := p.terms } (Read.ofBytes c data) 0) =
        (p.store.commit (hexOf data) (p.terms.typeOf data)
          { content := data, position := data.length } data.length).andThen
          (fun committed => .done (report committed)) ∧
      ∀ committed,
        (report committed).result = reported data (p.terms.typeOf data) committed.value ∧
        Read.consumed (Read.ofBytes c data) (report committed).taken = data.length := by
  obtain ⟨c', taken, hread, hsound, hterms, hcontent, htaken⟩ :=
    Candidate.read_whole hm hn hc hfits (.inl hadmits)
  have hnonneg : 0 ≤ c'.terms.sniffBytes := hterms ▸ hn ▸ Int.natCast_nonneg n
  rw [hread]
  rcases publish_cases hsound taken with ⟨a, mime, -, -, hallowed, htype, -⟩ |
    ⟨mime, report, htyped, hreport, hpublish⟩
  · rw [htype hnonneg, hterms, hcontent, ← Terms.admits, hadmits] at hallowed
    cases hallowed
  · have htype := htyped.told hnonneg
    rw [hterms, hcontent] at htype
    have hconclude := hpublish p
    rw [hcontent, htype] at hconclude
    refine ⟨report, hconclude, fun committed => ?_⟩
    obtain ⟨hresult, hcount⟩ := hreport committed
    rw [hcontent, htype] at hresult
    exact ⟨hresult, by rw [Read.consumed_ofBytes hc, hcount, Nat.min_eq_left htaken]⟩

/-- **An upload is given up as early as its reads allow.** A size declared over the limit is refused
without a read. Otherwise a file of another type is given up with the piece with which its type is told,
if the limit is not crossed with it; a file that is too large is given up with the piece that crosses the
limit; and any other file is read to its end and comes to its commit. So a declared size makes no upload
succeed, and the true one makes none fail. -/
theorem ingest_stops (hm : p.terms.maxSize = m) (hn : p.terms.sniffBytes = n) (hc : p.chunkSize = c)
    (hpos : 0 < c) (data : Bytes) (declared : Option Int) :
    let reads := Read.ofBytes p.chunkSize data
    let told := min data.length (c * max 1 (n ⌈/⌉ c))
    let early := p.terms.admits data = false ∧ told ≤ m
    ((∃ size ∈ declared, (m : Int) < size) → ∃ a, p.ingest declared reads = .done a ∧
        a.result = .error (.told (.tooLarge m)) ∧ a.taken = 0) ∧
      ((∀ size ∈ declared, size ≤ (m : Int)) →
        (early → ∃ a, p.ingest declared reads = .done a ∧
          a.GivenUp (.unsupportedType (p.terms.typeOf data)) reads told) ∧
        (¬ early → m < data.length → ∃ a, p.ingest declared reads = .done a ∧
          a.GivenUp (.tooLarge m) reads (min data.length (c * (m / c + 1)))) ∧
        (¬ early → data.length ≤ m → ∃ report : Log.Logged (Except Store.Fault Bool) → Attempt,
          p.ingest declared reads = (p.store.commit (hexOf data) (p.terms.typeOf data)
            { content := data, position := data.length } data.length).andThen
            (fun committed => .done (report committed)) ∧
          ∀ committed,
            (report committed).result = reported data (p.terms.typeOf data) committed.value ∧
            Read.consumed reads (report committed).taken = data.length)) ∧
      ∀ {σ : Type} (answer : (q : Q) → σ → A q × σ) (s : σ) (ref : Ref),
        (((p.ingest declared reads).run answer s).1.result = .ok ref →
          (p.ingest none reads).run answer s = (p.ingest declared reads).run answer s) ∧
        (((p.ingest none reads).run answer s).1.result = .ok ref →
          (p.ingest (some data.length) reads).run answer s = (p.ingest none reads).run answer s) := by
  intro reads told early
  have hnone : p.ingest none reads = p.conclude (Candidate.read { terms := p.terms } (Read.ofBytes c data) 0) := by
    rw [ingest_of_le (by nofun), ← hc]
  have hsame : ∀ declared : Option Int, (∀ size ∈ declared, size ≤ (m : Int)) →
      p.ingest declared reads = p.ingest none reads := by
    intro declared hle
    rw [ingest_of_le (hm ▸ hle), ingest_of_le (by nofun)]
  have hover : ∀ declared : Option Int, ¬ (∀ size ∈ declared, size ≤ (m : Int)) →
      p.ingest declared reads = .done { result := .error (.told (.tooLarge m)) } := by
    intro declared hnot
    rw [ingest_of_not_le (hm ▸ hnot), hm]
  have hlarge : m < data.length → ∃ a e, p.ingest none reads = .done a ∧ a.result = .error e := by
    intro hlt
    rw [hnone]
    by_cases hearly : early
    · obtain ⟨a, hdone, hgiven⟩ := conclude_unsupportedType hm hn hpos hearly.1 hearly.2
      exact ⟨a, _, hdone, hgiven.result⟩
    · obtain ⟨a, hdone, hgiven⟩ := conclude_tooLarge hm hn hpos hearly hlt
      exact ⟨a, _, hdone, hgiven.result⟩
  refine ⟨?_, ?_, ?_⟩
  · rintro ⟨size, hsize, hlt⟩
    exact ⟨_, hover declared fun hle => absurd hlt (Int.not_lt.2 (hle size hsize)), rfl, rfl⟩
  · intro hle
    rw [hsame declared hle, hnone, show reads = Read.ofBytes c data by rw [← hc]]
    refine ⟨fun hearly => conclude_unsupportedType hm hn hpos hearly.1 hearly.2,
      fun hlate hlt => conclude_tooLarge hm hn hpos hlate hlt, fun hlate hfits => ?_⟩
    refine conclude_whole hm hn hpos ?_ hfits
    by_contra hadmits
    exact hlate ⟨by simpa using hadmits, (Nat.min_le_left _ _).trans hfits⟩
  · intro σ answer s ref
    constructor
    · intro hok
      by_cases hle : ∀ size ∈ declared, size ≤ (m : Int)
      · rw [hsame declared hle]
      · rw [hover declared hle] at hok
        cases hok
    · intro hok
      by_cases hlt : m < data.length
      · obtain ⟨a, e, hdone, hfailed⟩ := hlarge hlt
        rw [hdone] at hok
        cases hfailed.symm.trans hok
      · rw [hsame (some data.length)]
        rintro size ⟨⟩
        omega

/-- A program of twelve bytes, said to have five: its type is told from eight, which are all that the limit
allows. -/
theorem ingest_stops_program :
    let files : Store.FileStore :=
      { root := { anchor := "/", parts := ["srv", "depot"] }, sniffBytes := 8
        sniff := Media.Signatures.standard.typeOf }
    let pipeline : Pipeline Store.DiskRequest Store.DiskRequest.Reply :=
      { store := files.store, chunkSize := 4
        terms := { maxSize := 8, sniffBytes := 8, allowed := [("image/gif", "gif")]
                   sniff := Media.Signatures.standard.typeOf } }
    let data := Bytes.ofText "MZ.........."
    (pipeline.terms.maxSize = (8 : Nat) ∧ pipeline.terms.sniffBytes = (8 : Nat) ∧
        pipeline.chunkSize = (4 : Nat) ∧ 0 < 4) ∧
      ∃ a, pipeline.ingest (some 5) (Read.ofBytes 4 data) = .done a ∧
        a.GivenUp (.unsupportedType "application/x-dosexec") (Read.ofBytes 4 data) 8 := by
  intro files pipeline data
  have hstops := ingest_stops (p := pipeline) (m := 8) (n := 8) (c := 4) rfl rfl rfl (by decide) data (some 5)
  have htype : pipeline.terms.typeOf data = "application/x-dosexec" := by decide +kernel
  have htold : min data.length (4 * max 1 (8 ⌈/⌉ 4)) = 8 := by decide +kernel
  have hearly : pipeline.terms.admits data = false ∧ min data.length (4 * max 1 (8 ⌈/⌉ 4)) ≤ 8 :=
    ⟨by decide +kernel, by rw [htold]⟩
  have hdeclared : ∀ size ∈ some (5 : Int), size ≤ ((8 : Nat) : Int) := by
    rintro size ⟨⟩
    decide
  obtain ⟨a, hdone, hgiven⟩ := (hstops.2.1 hdeclared).1 hearly
  rw [htype, htold] at hgiven
  exact ⟨⟨rfl, rfl, rfl, by decide⟩, a, hdone, hgiven⟩

end Pipeline

end UploadDepot.Upload
