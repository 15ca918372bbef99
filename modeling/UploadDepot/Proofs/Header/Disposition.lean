/-
The disposition of a part of a form, `form-data; name="file"; filename=a.png`,
its parameters tokens, in quotation marks or not, in any order: it is read as
what it says (`parameters_disposition`).
-/
import Mathlib.Data.List.Nodup
import UploadDepot.Header.Parameters
import UploadDepot.Multipart.Scanner
import UploadDepot.Proofs.Bytes
import UploadDepot.Proofs.Table
import UploadDepot.Proofs.Text

namespace UploadDepot.Header

/-! ## Tokens -/

/-- A word that needs no quotation marks. -/
structure Token where
  bytes : Bytes
  nonempty : bytes ≠ []
  isToken : ∀ b ∈ bytes, Multipart.isTokenByte b = true

/-- A token as it stands in a header, with or without quotation marks. -/
structure Word where
  token : Token
  quoted : Bool

/-- The bytes of a word. -/
def Word.bytes (w : Word) : Bytes :=
  if w.quoted then 0x22 :: w.token.bytes ++ [0x22] else w.token.bytes

/-- A character at which no piece is cut, and no quotation begins or ends. -/
def isInert (c : Char) : Bool := c ≠ ';' && c ≠ '"' && c ≠ '\\'

/-- A character without a meaning in headers. -/
def isPlain (c : Char) : Bool :=
  isInert c && c ≠ '<' && c ≠ ':' && c ≠ '=' && !Text.isBlank c

theorem isInert_of_isPlain {c : Char} (h : isPlain c = true) : isInert c = true := by
  simp only [isPlain, Bool.and_eq_true] at h
  exact h.1.1.1.1

theorem isPlain_token {b : UInt8} :
    Multipart.isTokenByte b = true → isPlain (Char.ofNat b.toNat) = true := by
  revert b
  apply Bytes.forall_byte
  decide +kernel

/-- The text of a token. -/
def Token.text (t : Token) : List Char := Bytes.latin1 t.bytes

theorem Token.plain (t : Token) : ∀ c ∈ t.text, isPlain c = true := by
  intro c hc
  obtain ⟨b, hb, rfl⟩ := List.mem_map.1 hc
  exact isPlain_token (t.isToken b hb)

theorem Token.not_blank (t : Token) : ∀ c ∈ t.text, Text.isBlank c = false := by
  intro c hc
  have hplain := t.plain c hc
  simp only [isPlain, Bool.and_eq_true, Bool.not_eq_true'] at hplain
  exact hplain.2

/-- The text of a word. -/
def Word.text (w : Word) : List Char := if w.quoted then enclose w.token.text else w.token.text

theorem Word.latin1_bytes (w : Word) : Bytes.latin1 w.bytes = w.text := by
  unfold bytes text
  split
  · simp [Bytes.latin1, enclose, Token.text]
  · rfl

variable {cs rest : List Char} {c : Char}

theorem not_mem_of_plain (h : ∀ c ∈ cs, isPlain c = true) (hc : isPlain c = false) : c ∉ cs := by
  intro hm
  simp [h c hm] at hc

/-! ## Pieces -/

/-- Characters before the first of the pieces. -/
def onto (cs : List Char) : List (List Char) → List (List Char)
  | [] => [cs]
  | piece :: pieces => (cs ++ piece) :: pieces

theorem onto_onto (a b : List Char) (ps : List (List Char)) : onto a (onto b ps) = onto (a ++ b) ps := by
  cases ps <;> simp [onto]

theorem pieces_cons (escaped quoted : Bool) (h : ¬ (c = ';' ∧ quoted = false)) (cs : List Char) :
    pieces escaped quoted (c :: cs) =
      onto [c] (pieces (c = '\\') (if c = '"' ∧ escaped = false then !quoted else quoted) cs) := by
  rw [pieces, if_neg h]
  dsimp only
  cases pieces _ _ cs <;> rfl

theorem onto_nil (escaped quoted : Bool) (cs : List Char) :
    onto [] (pieces escaped quoted cs) = pieces escaped quoted cs := by
  cases cs with
  | nil => rfl
  | cons c cs =>
    by_cases h : c = ';' ∧ quoted = false
    · rw [pieces, if_pos h]
      rfl
    · rw [pieces_cons escaped quoted h, onto_onto, List.nil_append]

/-- Inert characters all belong to one piece. -/
theorem pieces_inert (quoted : Bool) (h : ∀ c ∈ cs, isInert c = true) (rest : List Char) :
    pieces false quoted (cs ++ rest) = onto cs (pieces false quoted rest) := by
  induction cs with
  | nil => rw [List.nil_append, onto_nil]
  | cons c cs ih =>
    have hc := h c (by simp)
    simp only [isInert, Bool.and_eq_true, decide_eq_true_eq] at hc
    obtain ⟨⟨hcut, hmark⟩, hescape⟩ := hc
    have hrest := ih fun c hc => h c (by simp [hc])
    rw [List.cons_append, pieces_cons false quoted (by simp [hcut])]
    simp [hmark, hescape, hrest, onto_onto]

/-- A word belongs to one piece, its quotation marks included. -/
theorem pieces_word (w : Word) (rest : List Char) :
    pieces false false (w.text ++ rest) = onto w.text (pieces false false rest) := by
  have hinert : ∀ c ∈ w.token.text, isInert c = true := by
    intro c hc
    exact isInert_of_isPlain (w.token.plain c hc)
  unfold Word.text
  cases w.quoted with
  | false => exact pieces_inert false hinert rest
  | true =>
    have hopen : pieces false false ('"' :: (w.token.text ++ '"' :: rest)) =
        onto ['"'] (pieces false true (w.token.text ++ '"' :: rest)) :=
      pieces_cons false false (by decide) _
    have hclose : pieces false true ('"' :: rest) = onto ['"'] (pieces false false rest) :=
      pieces_cons false true (by decide) _
    have hsplit : enclose w.token.text ++ rest = '"' :: (w.token.text ++ '"' :: rest) := by
      simp [enclose]
    rw [if_pos rfl, hsplit, hopen, pieces_inert true hinert, hclose]
    simp [onto_onto, enclose]

/-! ## Values -/

theorem dropBefore_of_not_mem {a b : Char} (h : a ∉ cs) : dropBefore a b cs = cs := by
  induction cs with
  | nil => rfl
  | cons x cs ih =>
    simp only [List.mem_cons, not_or] at h
    obtain ⟨hx, hcs⟩ := h
    cases cs with
    | nil => rfl
    | cons y cs => simp [dropBefore, Ne.symm hx, ih (by simpa using hcs)]

theorem unquote_enclose (h : ∀ c ∈ cs, isPlain c = true) : unquote (enclose cs) = cs := by
  have hescape : '\\' ∉ cs := not_mem_of_plain h (by decide)
  have hinner : inner (enclose cs) = cs := by simp [inner, enclose]
  have hlen : ¬ (enclose cs).length ≤ 1 := by simp [enclose]
  have hends : (enclose cs).head? = some '"' ∧ (enclose cs).getLast? = some '"' :=
    ⟨rfl, List.getLast?_concat⟩
  rw [unquote, if_neg hlen, if_pos hends, hinner, dropBefore_of_not_mem hescape,
    dropBefore_of_not_mem hescape]

theorem unquote_plain (h : ∀ c ∈ cs, isPlain c = true) : unquote cs = cs := by
  have hhead : ∀ c, isPlain c = false → cs.head? ≠ some c := by
    intro c hc he
    exact not_mem_of_plain h hc (List.mem_of_head? he)
  have hmark := hhead '"' (by decide)
  have hangle := hhead '<' (by decide)
  unfold unquote
  split
  · rfl
  · simp [hmark, hangle]

theorem escape_plain (h : ∀ c ∈ cs, isPlain c = true) : escape cs = cs := by
  induction cs with
  | nil => rfl
  | cons c cs ih =>
    have hc := isInert_of_isPlain (h c (by simp))
    simp only [isInert, Bool.and_eq_true, decide_eq_true_eq] at hc
    obtain ⟨⟨_, hmark⟩, hescape⟩ := hc
    have hrest := ih fun c hc => h c (by simp [hc])
    unfold escape at hrest ⊢
    simp [hmark, hescape, hrest]

theorem baseName_plain (h : ∀ c ∈ cs, isPlain c = true) : baseName cs = cs := by
  have hcolon : ':' ∉ cs := not_mem_of_plain h (by decide)
  have hescape : '\\' ∉ cs := not_mem_of_plain h (by decide)
  unfold baseName
  rw [if_neg]
  rintro (hdrive | hshare)
  · exact hcolon (List.mem_of_mem_drop (List.mem_of_mem_take (hdrive ▸ List.mem_cons_self)))
  · exact hescape (List.mem_of_mem_take (hshare ▸ List.mem_cons_self))

theorem unquote_word (w : Word) : unquote w.text = w.token.text := by
  unfold Word.text
  split
  · exact unquote_enclose w.token.plain
  · exact unquote_plain w.token.plain

theorem strip_word (w : Word) : Text.strip w.text = w.text := by
  unfold Word.text
  split
  · refine Text.trim_eq_self (fun c hc => ?_) fun c hc => ?_
    · cases hc
      decide
    · have hlast : (enclose w.token.text).getLast? = some '"' := List.getLast?_concat
      rw [hlast] at hc
      cases hc
      decide
  · exact Text.trim_eq_self (fun c hc => w.token.not_blank c (List.mem_of_head? hc))
      fun c hc => w.token.not_blank c (List.mem_of_getLast? hc)

/-! ## Parameters -/

/-- A parameter: a key that does not ask for a special reading, and a word. -/
structure Parameter where
  /-- Spaces before the key. -/
  spaces : Nat
  key : Token
  word : Word
  unstarred : 0x2A ∉ key.bytes

/-- The bytes of a parameter. -/
def Parameter.bytes (p : Parameter) : Bytes :=
  0x3B :: (List.replicate p.spaces 0x20 ++ p.key.bytes ++ 0x3D :: p.word.bytes)

/-- The text of a parameter, without the semicolon before it. -/
def Parameter.text (p : Parameter) : List Char :=
  List.replicate p.spaces ' ' ++ p.key.text ++ '=' :: p.word.text

/-- The key of a parameter in small letters. -/
def Parameter.name (p : Parameter) : Bytes := Bytes.lower p.key.bytes

theorem Parameter.latin1_bytes (p : Parameter) : Bytes.latin1 p.bytes = ';' :: p.text := by
  unfold bytes text
  simp only [Bytes.latin1, Token.text, ← Word.latin1_bytes, List.map_cons, List.map_append,
    List.map_replicate]
  rfl

/-- In a token the small letters of bytes and of characters are the same. -/
theorem Token.lower_text (t : Token) : Text.lower t.text = Bytes.latin1 (Bytes.lower t.bytes) := by
  have hlower : ∀ b, Multipart.isTokenByte b = true →
      Text.lowerChar (Char.ofNat b.toNat) = Char.ofNat (Bytes.lowerByte b).toNat := by
    apply Bytes.forall_byte
    decide +kernel
  simp only [text, Text.lower, Bytes.latin1, Bytes.lower, List.map_map]
  apply List.map_congr_left
  intro b hb
  exact hlower b (t.isToken b hb)

theorem sectionName?_unstarred (h : '*' ∉ cs) : sectionName? cs = none := by
  unfold sectionName?
  dsimp only
  split
  · rename_i tail hdrop
    have hmem : '*' ∈ cs.dropWhile isWordChar := by simp [hdrop]
    exact absurd ((List.dropWhile_sublist isWordChar).subset hmem) h
  · rfl

theorem Parameter.sectionName?_name (p : Parameter) : sectionName? (Bytes.latin1 p.name) = none := by
  have hstar : ∀ b, Char.ofNat (Bytes.lowerByte b).toNat = '*' → b = 0x2A := by
    apply Bytes.forall_byte
    decide +kernel
  apply sectionName?_unstarred
  intro hmem
  simp only [name, Bytes.latin1, Bytes.lower, List.map_map, List.mem_map] at hmem
  obtain ⟨b, hb, hb'⟩ := hmem
  obtain rfl := hstar b hb'
  exact p.unstarred hb

theorem strip_spaces (n : Nat) (hhead : ∀ c ∈ cs.head?, Text.isBlank c = false)
    (hlast : ∀ c ∈ cs.getLast?, Text.isBlank c = false) :
    Text.strip (List.replicate n ' ' ++ cs) = cs := by
  have hblank : ∀ c ∈ List.replicate n ' ', Text.isBlank c = true := by
    intro c hc
    obtain rfl := List.eq_of_mem_replicate hc
    decide
  have hpadded : Text.strip (List.replicate n ' ' ++ (cs ++ [])) = cs :=
    Text.trim_padded hblank nofun hhead hlast
  rwa [List.append_nil] at hpadded

theorem Parameter.split_text (p : Parameter) : split p.text = (Bytes.latin1 p.name, p.word.text) := by
  have hkey : ∀ c ∈ List.replicate p.spaces ' ' ++ p.key.text, (c != '=') = true := by
    intro c hc
    rcases List.mem_append.1 hc with hspace | hc
    · obtain rfl := List.eq_of_mem_replicate hspace
      decide
    · simpa using ne_of_mem_of_not_mem hc (not_mem_of_plain p.key.plain (by decide))
  have htake : p.text.takeWhile (· != '=') = List.replicate p.spaces ' ' ++ p.key.text := by
    rw [text, List.takeWhile_append_of_pos hkey]
    simp
  have hdrop : p.text.dropWhile (· != '=') = '=' :: p.word.text := by
    rw [text, List.dropWhile_append_of_pos hkey]
    simp
  have hstrip : Text.strip (List.replicate p.spaces ' ' ++ p.key.text) = p.key.text := by
    apply strip_spaces
    · intro c hc
      exact p.key.not_blank c (List.mem_of_head? hc)
    · intro c hc
      exact p.key.not_blank c (List.mem_of_getLast? hc)
  unfold split
  simp only [hdrop, htake, hstrip, p.key.lower_text, strip_word, name]

/-- A parameter belongs to one piece. -/
theorem Parameter.pieces_text (p : Parameter) (rest : List Char) :
    pieces false false (p.text ++ rest) = onto p.text (pieces false false rest) := by
  have hinert : ∀ c ∈ List.replicate p.spaces ' ' ++ p.key.text ++ ['='], isInert c = true := by
    intro c hc
    simp only [List.mem_append, List.mem_singleton] at hc
    rcases hc with (hspace | hkey) | rfl
    · obtain rfl := List.eq_of_mem_replicate hspace
      decide
    · exact isInert_of_isPlain (p.key.plain c hkey)
    · decide
  have hsplit : p.text = List.replicate p.spaces ' ' ++ p.key.text ++ ['='] ++ p.word.text := by
    simp [text]
  rw [hsplit, List.append_assoc, pieces_inert false hinert, pieces_word, onto_onto]

theorem pieces_parameters (ps : List Parameter) :
    pieces false false (ps.flatMap fun p => ';' :: p.text) = [] :: ps.map Parameter.text := by
  induction ps with
  | nil => rfl
  | cons p ps ih =>
    rw [List.flatMap_cons, List.cons_append, pieces, if_pos ⟨rfl, rfl⟩, p.pieces_text, ih]
    simp [onto]

/-- The parameter as it is collected. -/
def Parameter.plain (p : Parameter) : List Char × List Char :=
  (Bytes.latin1 p.name, enclose p.word.token.text)

theorem collect_parameters (ps : List Parameter) (acc : Collected) :
    (ps.map Parameter.text).foldlM (fun acc piece => acc.add (split piece).1 (split piece).2) acc =
      .ok { acc with plain := acc.plain ++ ps.map Parameter.plain } := by
  induction ps generalizing acc with
  | nil => simp [pure, Except.pure]
  | cons p ps ih =>
    have hadd : acc.add (split p.text).1 (split p.text).2 =
        .ok { acc with plain := acc.plain ++ [p.plain] } := by
      simp only [p.split_text, Collected.add, p.sectionName?_name, unquote_word,
        escape_plain p.word.token.plain, Parameter.plain]
    rw [List.map_cons, List.foldlM_cons, hadd]
    refine (ih _).trans ?_
    simp

/-- What a parameter says. -/
def Parameter.entry (p : Parameter) : Bytes × Bytes := (p.name, p.word.token.bytes)

theorem store_parameter (table : Parameters) (p : Parameter) :
    store table p.plain = .ok (table.set p.name p.word.token.bytes) := by
  have hkey : encode (Bytes.latin1 p.name) = .ok p.name := by rw [encode, Bytes.ofLatin1?_latin1]
  have hvalue : encode p.word.token.text = .ok p.word.token.bytes := by
    rw [encode, Token.text, Bytes.ofLatin1?_latin1]
  have hbase : (if Bytes.latin1 p.name = "filename".toList then baseName p.word.token.text
      else p.word.token.text) = p.word.token.text := by
    split
    · exact baseName_plain p.word.token.plain
    · rfl
  unfold store Parameter.plain
  rw [unquote_enclose p.word.token.plain]
  dsimp only
  rw [hbase, hkey, hvalue]
  rfl

theorem store_parameters (ps : List Parameter) (table : Parameters)
    (h : (table.map Prod.fst ++ ps.map Parameter.name).Nodup) :
    (ps.map Parameter.plain).foldlM store table = .ok (table ++ ps.map Parameter.entry) := by
  induction ps generalizing table with
  | nil => simp [pure, Except.pure]
  | cons p ps ih =>
    have hnew : p.name ∉ table.map Prod.fst := by
      intro hmem
      exact List.disjoint_of_nodup_append h hmem (by simp)
    rw [List.map_cons, List.foldlM_cons, store_parameter, Table.set_of_not_mem _ hnew]
    refine (ih (table ++ [p.entry]) ?_).trans ?_
    · rw [List.map_append, List.append_assoc]
      exact h
    · simp [Parameter.entry]

/-! ## Dispositions -/

/-- The disposition of a part of a form, no two of its parameters of one name. -/
structure Disposition where
  parameters : List Parameter
  distinct : (parameters.map Parameter.name).Nodup

/-- The disposition as the value of a header. -/
def Disposition.value (d : Disposition) : Bytes :=
  Bytes.ofText "form-data" ++ d.parameters.flatMap Parameter.bytes

/-- What a disposition says. -/
def Disposition.table (d : Disposition) : Parameters := d.parameters.map Parameter.entry

theorem Disposition.latin1_value (d : Disposition) :
    Bytes.latin1 d.value = "form-data".toList ++ d.parameters.flatMap fun p => ';' :: p.text := by
  have hmain : Bytes.latin1 (Bytes.ofText "form-data") = "form-data".toList := by decide +kernel
  unfold value
  rw [Bytes.latin1_append, hmain, Bytes.latin1, List.map_flatMap]
  congr 1
  apply List.flatMap_congr
  intro p _
  exact p.latin1_bytes

/-- **A disposition is read as what it says.** -/
theorem parameters_disposition (d : Disposition) :
    parameters (Bytes.latin1 d.value) = .ok (Bytes.ofText "form-data", d.table) := by
  have hmain : encode "form-data".toList = .ok (Bytes.ofText "form-data") := by decide +kernel
  have hinert : ∀ c ∈ "form-data".toList, isInert c = true := List.all_eq_true.1 (by decide)
  have hpieces : pieces false false (Bytes.latin1 d.value) =
      "form-data".toList :: d.parameters.map Parameter.text := by
    rw [d.latin1_value, pieces_inert false hinert, pieces_parameters]
    simp [onto]
  have hsplit : (split "form-data".toList).1 = "form-data".toList := by decide +kernel
  have hne : Bytes.latin1 d.value ≠ [] := by simp [d.latin1_value]
  rw [parameters, if_neg hne]
  by_cases hnone : d.parameters = []
  -- Without a semicolon the value is a main value.
  · have hvalue : Bytes.latin1 d.value = "form-data".toList := by simp [d.latin1_value, hnone]
    have hstrip : encode (Text.strip (Text.lower "form-data".toList)) =
        .ok (Bytes.ofText "form-data") := by decide +kernel
    rw [hvalue, if_pos (by decide), hstrip, Disposition.table, hnone]
    rfl
  have hsemicolon : (Bytes.latin1 d.value).contains ';' = true := by
    obtain ⟨p, ps, hps⟩ := List.exists_cons_of_ne_nil hnone
    simp [d.latin1_value, hps]
  have hstored := store_parameters d.parameters [] d.distinct
  rw [hsemicolon, if_neg (by decide), hpieces]
  dsimp only
  rw [collect_parameters, hsplit, hmain]
  simp only [bind, Except.bind, List.mapM_nil, pure, Except.pure, List.nil_append, List.append_nil,
    hstored]
  rfl

end UploadDepot.Header
