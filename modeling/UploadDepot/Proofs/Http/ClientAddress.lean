/-
The client is told by what its headers spell, however they spell it.

A value of Forwarded is described by what it is made of (`Forwarded`): other
parameters, then a `for` parameter with its node (`Node`), then anything that
begins with a comma or a semicolon. `client_told`: of such a value the client
is the address of the node, unless the first entry of X-Forwarded-For
(`FirstEntry`) is more than blanks; then it is that entry. It always has a
name.
-/
import UploadDepot.Http.ClientAddress
import UploadDepot.Proofs.Text

namespace UploadDepot.Http

open Text (isBlank before partsAt)

variable {cs part : List Char} {fields : Fields}

/-- Blanks alone, or nothing. -/
def Blank (cs : List Char) : Prop := ∀ c ∈ cs, isBlank c = true

theorem Blank.not_mem (h : Blank cs) {c : Char} (hc : isBlank c = false) : c ∉ cs := fun hmem => by
  rw [h c hmem] at hc
  cases hc

/-! ## The first entry of a list -/

/-- What stands before the first comma of a text, without the blanks around it. -/
def FirstEntry (text entry : List Char) : Prop :=
  ∃ pad slack rest, text = pad ++ (entry ++ slack) ++ rest ∧ Blank pad ∧ Blank slack ∧ ',' ∉ entry ∧
    (∀ c ∈ entry.head?, isBlank c = false) ∧ (∀ c ∈ entry.getLast?, isBlank c = false) ∧
    ∀ c ∈ rest.head?, c = ','

theorem exists_firstEntry (text : List Char) : ∃ entry, FirstEntry text entry := by
  obtain ⟨pad, entry, slack, hentry, hpad, hslack, hhead, hlast⟩ :=
    Text.exists_padded isBlank (before ',' text)
  refine ⟨entry, pad, slack, text.dropWhile (· != ','), ?_, hpad, hslack, ?_, hhead, hlast, ?_⟩
  · rw [← hentry, before, List.takeWhile_append_dropWhile]
  · intro hcomma
    have hmem : ',' ∈ before ',' text := by
      rw [hentry]
      simp [hcomma]
    simpa using List.all_eq_true.1 List.all_takeWhile ',' hmem
  · intro c hc
    have hnot := List.head?_dropWhile_not (· != ',') text
    rw [hc] at hnot
    simpa using hnot

theorem FirstEntry.strip_before {text entry : List Char} (h : FirstEntry text entry) :
    Text.strip (before ',' text) = entry := by
  obtain ⟨pad, slack, rest, rfl, hpad, hslack, hcomma, hhead, hlast, hrest⟩ := h
  have hblank : isBlank ',' = false := by decide
  have hmem : ',' ∉ pad ++ (entry ++ slack) := by
    simp [hpad.not_mem hblank, hslack.not_mem hblank, hcomma]
  rw [Text.before_append hmem hrest, Text.strip, Text.trim_padded hpad hslack hhead hlast]

/-- The first entry of X-Forwarded-For, if there is that header. -/
def Enters (fields : Fields) (entry : List Char) : Prop :=
  ∃ text, fields.get? "x-forwarded-for" = some text ∧ FirstEntry text.toList entry

theorem forwardedFor?_of_enters {entry : List Char} (h : Enters fields entry) :
    forwardedFor? fields = if entry = [] then none else some entry := by
  obtain ⟨text, hget, hentry⟩ := h
  rw [forwardedFor?, hget]
  dsimp only
  rw [hentry.strip_before]

theorem forwardedFor?_eq_none (h : ∀ entry, Enters fields entry → entry = []) :
    forwardedFor? fields = none := by
  cases hget : fields.get? "x-forwarded-for" with
  | none => rw [forwardedFor?, hget]
  | some text =>
    obtain ⟨entry, hentry⟩ := exists_firstEntry text.toList
    have henters : Enters fields entry := ⟨text, hget, hentry⟩
    rw [forwardedFor?_of_enters henters, if_pos (h entry henters)]

/-! ## Nodes -/

/-- The node of a client: an address, in brackets or not, with or without a port, in quotation marks
or not. -/
structure Node where
  address : List Char
  bracketed : Bool := false
  port : Option (List Char) := none
  quoted : Bool := false
  nonempty : address ≠ []
  unblank : ∀ c ∈ address, isBlank c = false
  unmarked : ∀ c ∈ address, c ∉ [',', ';', '"', '[', ']']
  /-- Only in brackets an address has colons. -/
  uncolonned : bracketed = false → ':' ∉ address
  digits : ∀ digits ∈ port, ∀ c ∈ digits, c.isDigit = true

namespace Node

/-- A port with the colon before it. -/
def portText (n : Node) : List Char :=
  match n.port with
  | none => []
  | some digits => ':' :: digits

/-- An address as it stands. -/
def hostText (n : Node) : List Char :=
  if n.bracketed then '[' :: (n.address ++ [']']) else n.address

/-- A node as it is written. -/
def text (n : Node) : List Char :=
  if n.quoted then '"' :: (n.hostText ++ n.portText ++ ['"']) else n.hostText ++ n.portText

/-- A character that is neither a blank nor cuts a header. -/
def IsSolid (c : Char) : Prop := isBlank c = false ∧ c ≠ ',' ∧ c ≠ ';'

theorem solid_address (n : Node) {c : Char} (hc : c ∈ n.address) : IsSolid c ∧ c ≠ '"' := by
  have hmarks := n.unmarked c hc
  simp only [List.mem_cons, not_or] at hmarks
  exact ⟨⟨n.unblank c hc, hmarks.1, hmarks.2.1⟩, hmarks.2.2.1⟩

theorem solid_digit {c : Char} (hc : c.isDigit = true) : IsSolid c ∧ c ≠ '"' :=
  Text.forall_isDigit (motive := fun c => IsSolid c ∧ c ≠ '"') (by unfold IsSolid; decide) hc

theorem solid_inner (n : Node) {c : Char} (hc : c ∈ n.hostText ++ n.portText) : IsSolid c ∧ c ≠ '"' := by
  have hmark : ∀ d ∈ ['[', ']', ':'], IsSolid d ∧ d ≠ '"' := by
    unfold IsSolid
    exact Text.forall_mem_of_all (by decide)
  rcases List.mem_append.1 hc with hhost | hport
  · rw [hostText] at hhost
    split at hhost
    · simp only [List.mem_cons, List.mem_append, List.not_mem_nil, or_false] at hhost
      rcases hhost with rfl | haddress | rfl
      · exact hmark _ (by simp)
      · exact n.solid_address haddress
      · exact hmark _ (by simp)
    · exact n.solid_address hhost
  · rw [portText] at hport
    split at hport
    · cases hport
    · rename_i digits hdigits
      rcases List.mem_cons.1 hport with rfl | hdigit
      · exact hmark _ (by simp)
      · exact solid_digit (n.digits digits hdigits c hdigit)

theorem solid_text (n : Node) {c : Char} (hc : c ∈ n.text) : IsSolid c := by
  rw [text] at hc
  split at hc
  · have hquote : IsSolid '"' := by
      unfold IsSolid
      decide
    rcases List.mem_cons.1 hc with rfl | hc
    · exact hquote
    rcases List.mem_append.1 hc with hinner | hlast
    · exact (n.solid_inner hinner).1
    · exact List.mem_singleton.1 hlast ▸ hquote
  · exact (n.solid_inner hc).1

/-- Without its quotation marks a node is its address and its port. -/
theorem trim_text (n : Node) : Text.trim (· == '"') n.text = n.hostText ++ n.portText := by
  have hinner : ∀ c ∈ n.hostText ++ n.portText, (c == '"') = false := fun c hc =>
    beq_eq_false_iff_ne.2 (n.solid_inner hc).2
  have hhead : ∀ c ∈ (n.hostText ++ n.portText).head?, (c == '"') = false := fun c hc =>
    hinner c (List.mem_of_head? hc)
  have hlast : ∀ c ∈ (n.hostText ++ n.portText).getLast?, (c == '"') = false := fun c hc =>
    hinner c (List.mem_of_getLast? hc)
  rw [text]
  split
  · have hquote : ∀ c ∈ ['"'], (c == '"') = true := by simp
    exact Text.trim_padded hquote hquote hhead hlast
  · exact Text.trim_eq_self hhead hlast

/-- Up to its bracket or its colon a node is its address. -/
theorem cut_address (n : Node) :
    (match n.hostText ++ n.portText with
      | '[' :: address => some (before ']' address)
      | _ => some (before ':' (n.hostText ++ n.portText))) = some n.address := by
  cases hbracketed : n.bracketed with
  | true =>
    have hclose : ']' ∉ n.address := fun hmem => n.unmarked _ hmem (by simp)
    have htext : n.hostText ++ n.portText = '[' :: (n.address ++ ']' :: n.portText) := by
      simp [hostText, hbracketed]
    have hcut : before ']' (n.address ++ ']' :: n.portText) = n.address :=
      Text.before_append hclose (by simp)
    simp only [htext, hcut]
  | false =>
    have hhost : n.hostText = n.address := by rw [hostText, hbracketed, if_neg (by simp)]
    have hport : ∀ c ∈ n.portText.head?, c = ':' := by
      rw [portText]
      split <;> simp
    have hopen : ∀ address, n.hostText ++ n.portText ≠ '[' :: address := by
      intro address he
      obtain ⟨c, cs, hcons⟩ := List.exists_cons_of_ne_nil n.nonempty
      rw [hhost, hcons, List.cons_append] at he
      obtain ⟨rfl, -⟩ := List.cons.inj he
      exact n.unmarked _ (by rw [hcons]; exact List.mem_cons_self) (by simp)
    split
    · rename_i address he
      exact absurd he (hopen address)
    · rw [hhost, Text.before_append (n.uncolonned hbracketed) hport]

end Node

/-! ## Parameters -/

/-- The word `for=`, in letters of any case. -/
def IsFor (key : List Char) : Prop := key.map Char.toLower = "for=".toList

/-- A part that begins with the word, but for blanks before it. -/
def BeginsFor (part : List Char) : Prop :=
  ∃ pad key rest, part = pad ++ (key ++ rest) ∧ Blank pad ∧ IsFor key

theorem isFor_iff {key : List Char} : IsFor key ↔ Text.lower key = "for=".toList := by
  have hchar : ∀ (word : List Char), (∀ d ∈ word, d.toNat < 128 ∧ d ≠ 'k') → ∀ key : List Char,
      (key.map Char.toLower = word ↔ Text.lower key = word) := by
    intro word hword
    induction word with
    | nil => simp [Text.lower]
    | cons d word ih =>
      intro key
      obtain ⟨hd, hk⟩ := hword d List.mem_cons_self
      cases key with
      | nil => simp [Text.lower]
      | cons c key =>
        have hrest := ih (fun d hd => hword d (List.mem_cons_of_mem _ hd)) key
        simp only [Text.lower] at hrest
        simp only [Text.lower, List.map_cons, List.cons.injEq, hrest, Text.lowerChar_eq_iff hd hk]
  exact hchar _ (Text.forall_mem_of_all (by decide)) key

theorem IsFor.length {key : List Char} (h : IsFor key) : key.length = 4 := by
  have := congrArg List.length h
  rwa [List.length_map] at this

/-- No letter of the word is a blank. -/
theorem IsFor.unblank {key : List Char} (h : IsFor key) : ∀ c ∈ key, isBlank c = false := by
  intro c hc
  have hmem : c.toLower ∈ "for=".toList := h ▸ List.mem_map_of_mem hc
  by_cases hascii : c.toNat < 128
  · have hall : ∀ n : Fin 128, (Char.ofNat n).toLower ∈ "for=".toList → isBlank (Char.ofNat n) = false := by
      decide +kernel
    have hchar := hall ⟨c.toNat, hascii⟩
    rw [Char.ofNat_toNat] at hchar
    exact hchar hmem
  · have hword : ∀ d ∈ "for=".toList, d.toNat < 128 := Text.forall_mem_of_all (by decide)
    rw [Text.toLower_of_not_ascii (Nat.not_lt.1 hascii)] at hmem
    exact absurd (hword c hmem) hascii

/-- A `for` parameter names the address of its node. -/
theorem forwardedNode?_for {pad key gap slack rest : List Char} (n : Node) (hpad : Blank pad)
    (hkey : IsFor key) (hgap : Blank gap) (hslack : Blank slack) (hrest : ∀ c ∈ rest.head?, c = ',') :
    forwardedNode? (pad ++ (key ++ (gap ++ (n.text ++ slack) ++ rest))) = some n.address := by
  have hcomma : isBlank ',' = false := by decide
  have hblank : ∀ c ∈ n.text, isBlank c = false := fun c hc => (n.solid_text hc).1
  have hunmarked : ',' ∉ gap ++ (n.text ++ slack) := by
    have hnode : ',' ∉ n.text := fun hmem => (n.solid_text hmem).2.1 rfl
    simp [hgap.not_mem hcomma, hslack.not_mem hcomma, hnode]
  -- the blanks at the end of the part may belong to its node or to what follows
  obtain ⟨value, tail, hvalue, htail, hlast⟩ :=
    Text.exists_slack isBlank (gap ++ (n.text ++ slack) ++ rest)
  have hkeyNe : key ≠ [] := by
    rintro rfl
    exact absurd hkey.length (by decide)
  have hstrip : Text.strip (pad ++ (key ++ (gap ++ (n.text ++ slack) ++ rest))) = key ++ value := by
    rw [hvalue, ← List.append_assoc key]
    refine Text.trim_padded hpad htail (fun c hc => ?_) fun c hc => ?_
    · rw [List.head?_append, Option.or_of_isSome (List.isSome_head?.2 hkeyNe)] at hc
      exact hkey.unblank c (List.mem_of_head? hc)
    · rw [List.getLast?_append] at hc
      cases hv : value.getLast? with
      | none =>
        rw [hv, Option.none_or] at hc
        exact hkey.unblank c (List.mem_of_getLast? hc)
      | some d =>
        rw [hv, Option.some_or] at hc
        exact hlast c (hv.trans hc)
  have hnode : Text.strip (before ',' value) = n.text := by
    rw [← Text.strip_before_append hcomma htail, ← hvalue, Text.before_append hunmarked hrest]
    exact Text.trim_padded hgap hslack (fun c hc => hblank c (List.mem_of_head? hc))
      fun c hc => hblank c (List.mem_of_getLast? hc)
  rw [forwardedNode?, hstrip]
  dsimp only
  rw [List.take_left' hkey.length, if_pos (isFor_iff.1 hkey), List.drop_left' hkey.length, hnode, n.trim_text]
  exact n.cut_address

/-- Another parameter names nobody. -/
theorem forwardedNode?_other (h : ¬ BeginsFor part) : forwardedNode? part = none := by
  rw [forwardedNode?]
  dsimp only
  rw [if_neg]
  intro hfor
  obtain ⟨pad, core, slack, hpart, hpad, hslack, hhead, hlast⟩ := Text.exists_padded isBlank part
  have hstrip : Text.strip part = core := by
    rw [hpart]
    exact Text.trim_padded hpad hslack hhead hlast
  rw [hstrip] at hfor
  refine h ⟨pad, core.take 4, core.drop 4 ++ slack, ?_, hpad, isFor_iff.2 hfor⟩
  rw [hpart, ← List.append_assoc (core.take 4), List.take_append_drop]

/-! ## Values of Forwarded -/

/-- A value of Forwarded with a `for` parameter. -/
structure Forwarded where
  /-- The parameters before it. -/
  others : List (List Char)
  /-- The name of the parameter with its equals sign, and the blanks before and after it. -/
  pad : List Char
  key : List Char
  gap : List Char
  node : Node
  /-- Blanks after the node, and then anything that is no more part of it. -/
  slack : List Char
  rest : List Char
  uncut : ∀ part ∈ others, ';' ∉ part
  silent : ∀ part ∈ others, ¬ BeginsFor part
  isFor : IsFor key
  blankPad : Blank pad
  blankGap : Blank gap
  blankSlack : Blank slack
  ends : ∀ c ∈ rest.head?, c = ',' ∨ c = ';'

namespace Forwarded

/-- The `for` parameter, and all that comes after it. -/
def last (f : Forwarded) : List Char :=
  f.pad ++ (f.key ++ (f.gap ++ (f.node.text ++ f.slack) ++ f.rest))

/-- A value as it is written. -/
def text (f : Forwarded) : List Char := f.others.flatMap (· ++ [';']) ++ f.last

theorem before_last (f : Forwarded) :
    before ';' f.last = f.pad ++ (f.key ++ (f.gap ++ (f.node.text ++ f.slack) ++ before ';' f.rest)) := by
  have hsemicolon : isBlank ';' = false := by decide
  have hkey : ';' ∉ f.key := fun hmem => by
    have hlower : ';'.toLower ∈ "for=".toList := f.isFor ▸ List.mem_map_of_mem hmem
    exact absurd hlower (by decide)
  have hnode : ';' ∉ f.node.text := fun hmem => (f.node.solid_text hmem).2.2 rfl
  have huncut : ';' ∉ f.pad ++ (f.key ++ (f.gap ++ (f.node.text ++ f.slack))) := by
    simp [f.blankPad.not_mem hsemicolon, f.blankGap.not_mem hsemicolon,
      f.blankSlack.not_mem hsemicolon, hkey, hnode]
  have hne : ∀ c ∈ f.pad ++ (f.key ++ (f.gap ++ (f.node.text ++ f.slack))), (c != ';') = true :=
    fun c hc => bne_iff_ne.2 (ne_of_mem_of_not_mem hc huncut)
  have hwhole : (_ ++ f.rest).takeWhile (· != ';') = _ ++ f.rest.takeWhile (· != ';') :=
    List.takeWhile_append_of_pos hne
  simpa only [before, last, List.append_assoc] using hwhole

/-- Of such a value the node is found. -/
theorem found (f : Forwarded) :
    ((partsAt ';' f.text).findSome? fun part =>
      match forwardedNode? part with
      | none | some [] => none
      | some node => some node) = some f.node.address := by
  rw [text]
  have huncut := f.uncut
  have hsilent := f.silent
  generalize f.others = others at huncut hsilent ⊢
  induction others with
  | nil =>
    obtain ⟨parts, hparts⟩ := Text.partsAt_before ';' f.last
    have hrest : ∀ c ∈ (before ';' f.rest).head?, c = ',' := by
      cases hf : f.rest with
      | nil => simp [before]
      | cons d rest =>
        rcases f.ends d (by rw [hf]; rfl) with rfl | rfl <;> simp [before]
    have hnode := forwardedNode?_for f.node f.blankPad f.isFor f.blankGap f.blankSlack hrest
    rw [List.flatMap_nil, List.nil_append, hparts, f.before_last, List.findSome?_cons, hnode]
    obtain ⟨c, cs, hcons⟩ := List.exists_cons_of_ne_nil f.node.nonempty
    rw [hcons]
  | cons part others ih =>
    have hpart := forwardedNode?_other (hsilent part List.mem_cons_self)
    rw [List.flatMap_cons, List.append_assoc, List.append_assoc, List.singleton_append,
      Text.partsAt_append _ (huncut part List.mem_cons_self), List.findSome?_cons, hpart]
    exact ih (fun p hp => huncut p (List.mem_cons_of_mem _ hp))
      fun p hp => hsilent p (List.mem_cons_of_mem _ hp)

end Forwarded

/-! ## The client -/

theorem forwardedFor?_ne_nil {entry : List Char} (h : forwardedFor? fields = some entry) :
    entry ≠ [] := by
  rw [forwardedFor?] at h
  split at h
  · cases h
  · dsimp only at h
    split at h
    · cases h
    · rename_i hne
      exact Option.some.inj h ▸ hne

theorem forwarded?_ne_nil {node : List Char} (h : forwarded? fields = some node) : node ≠ [] := by
  rw [forwarded?] at h
  split at h
  · cases h
  · obtain ⟨part, -, hpart⟩ := List.exists_of_findSome?_eq_some h
    split at hpart
    · cases hpart
    · cases hpart
    · rename_i hne _
      cases hpart
      rintro rfl
      exact hne rfl

theorem clientAddress_ne_empty (fields : Fields) (peer : Option String) :
    clientAddress fields peer ≠ "" := by
  have hofList : ∀ cs : List Char, cs ≠ [] → String.ofList cs ≠ "" := by
    intro cs hcs he
    rw [← String.toList_inj, String.toList_ofList] at he
    exact hcs he
  unfold clientAddress
  split
  · rename_i hentry
    exact hofList _ (forwardedFor?_ne_nil hentry)
  split
  · rename_i hnode
    exact hofList _ (forwarded?_ne_nil hnode)
  split
  · decide
  split
  · decide
  · assumption

/-- **The client is told** by the first entry of X-Forwarded-For, if that is more than blanks; else by
the node of Forwarded, however the node is written and whatever stands around it. It is never without
a name. -/
theorem client_told (fields : Fields) (peer : Option String) :
    (∀ entry, Enters fields entry → entry ≠ [] →
        clientAddress fields peer = String.ofList entry) ∧
      ((∀ entry, Enters fields entry → entry = []) →
        ∀ f : Forwarded, fields.get? "forwarded" = some (String.ofList f.text) →
          clientAddress fields peer = String.ofList f.node.address) ∧
      clientAddress fields peer ≠ "" := by
  refine ⟨fun entry henters hne => ?_, fun hblank f hget => ?_, clientAddress_ne_empty fields peer⟩
  · unfold clientAddress
    rw [forwardedFor?_of_enters henters, if_neg hne]
  · have hnode : forwarded? fields = some f.node.address := by
      rw [forwarded?, hget]
      dsimp only
      rw [String.toList_ofList]
      exact f.found
    unfold clientAddress
    rw [forwardedFor?_eq_none hblank, hnode]

/-- A client in brackets and quotation marks, with a port, before a list and after another parameter. -/
def bracketed : Forwarded where
  others := ["by=203.0.113.43".toList]
  pad := [' ']
  key := "FoR=".toList
  gap := ['\t']
  node :=
    { address := "2001:db8::1".toList
      bracketed := true
      port := some "4711".toList
      quoted := true
      nonempty := by decide
      unblank := Text.forall_mem_of_all (by decide)
      unmarked := Text.forall_mem_of_all (by decide)
      uncolonned := by decide
      digits := by
        rintro _ ⟨⟩
        exact Text.forall_mem_of_all (by decide) }
  slack := [' ']
  rest := ", for=10.0.0.2;proto=https".toList
  uncut := by decide
  silent := by
    intro part hpart
    obtain rfl := List.mem_singleton.1 hpart
    rintro ⟨pad, key, rest, hpart, hpad, hkey⟩
    cases pad with
    | nil =>
      cases key with
      | nil => exact absurd hkey.length (by decide)
      | cons c key =>
        obtain ⟨rfl, -⟩ := List.cons.inj hpart
        obtain ⟨hb, -⟩ := List.cons.inj hkey
        exact absurd hb (by decide)
    | cons c pad =>
      obtain ⟨rfl, -⟩ := List.cons.inj hpart
      exact absurd (hpad _ List.mem_cons_self) (by decide)
  isFor := by
    unfold IsFor
    decide
  blankPad := Text.forall_mem_of_all (by decide)
  blankGap := Text.forall_mem_of_all (by decide)
  blankSlack := Text.forall_mem_of_all (by decide)
  ends := by
    rintro _ ⟨⟩
    decide

/-- The headers of a client whose first proxy wrote a blank entry. -/
def blankEntry : Fields :=
  [("X-Forwarded-For", "\t , 10.0.0.1"), ("Forwarded", String.ofList bracketed.text)]

/-- It is told by its node; with another first entry by that. -/
theorem client_told_bracketed :
    bracketed.text =
        "by=203.0.113.43; FoR=\t\"[2001:db8::1]:4711\" , for=10.0.0.2;proto=https".toList ∧
      clientAddress blankEntry (some "10.0.0.9") = "2001:db8::1" ∧
      clientAddress (("x-forwarded-for", " 203.0.113.5 ,") :: blankEntry) none = "203.0.113.5" := by
  refine ⟨by decide +kernel, ?_, ?_⟩
  · refine (client_told blankEntry (some "10.0.0.9")).2.1 (fun entry henters => ?_) bracketed
      (by decide +kernel)
    obtain ⟨text, hget, hentry⟩ := henters
    have hfirst : blankEntry.get? "x-forwarded-for" = some "\t , 10.0.0.1" := by decide +kernel
    obtain rfl := Option.some.inj (hfirst.symm.trans hget)
    rw [← hentry.strip_before]
    decide +kernel
  · refine (client_told (("x-forwarded-for", " 203.0.113.5 ,") :: blankEntry) none).1
      "203.0.113.5".toList ⟨" 203.0.113.5 ,", by decide +kernel, [' '], [' '], [','], ?_⟩ (by decide)
    have hspace : Blank [' '] := Text.forall_mem_of_all (by decide)
    refine ⟨by decide +kernel, hspace, hspace, by decide, ?_, ?_, ?_⟩
    · rintro _ ⟨⟩
      decide
    · rintro _ ⟨⟩
      decide
    · rintro _ ⟨⟩
      rfl

end UploadDepot.Http
