/-
What an answer tells: of an upload that was stored, its digest and type; and
of a path below the root of the images, whether it leads to one.
-/
import UploadDepot.Http.Site
import UploadDepot.Proofs.Digest.Hex
import UploadDepot.Proofs.Json

namespace UploadDepot.Http

open Upload (Ref Attempt UploadError)

/-! ## Answers to uploads -/

/-- The answer to an upload tells the digest and the type. -/
theorem stored_inj {r r' : Ref} (h : stored r = stored r') : r.hash = r'.hash ∧ r.mime = r'.mime := by
  have hbody := ofText_injective (congrArg Response.body h)
  simp only [Json.render, Json.renderFields, String.intercalate_cons_cons,
    String.intercalate_singleton, String.append_assoc, String.append_right_inj] at hbody
  obtain ⟨hhash, hrest⟩ := Json.quoted_inj hbody
  simp only [String.append_right_inj] at hrest
  exact ⟨hhash, (Json.quoted_inj hrest).1⟩

theorem stored_status (r : Ref) : (stored r).status = if r.duplicate then 200 else 201 := by
  show r.outcome.status = _
  unfold Ref.outcome
  cases r.duplicate <;> rfl

/-- An upload that failed is not answered like one that was stored. -/
theorem rejected_status (e : UploadError) : 400 ≤ (rejected e).response.status := by
  show 400 ≤ e.outcome.status
  cases e <;> simp [UploadError.outcome, Upload.Outcome.status]

theorem turnedAway_status (fault : RateLimit.AdmissionFault) :
    400 ≤ (Site.turnedAway fault).response.status := by
  cases fault with
  | limited _ => exact (by decide : 400 ≤ 429)
  | call _ => exact (by decide : 400 ≤ 500)
  | window _ => exact (by decide : 400 ≤ 500)

theorem ne_stored {r : Response} (h : 400 ≤ r.status) (ref : Ref) : r ≠ stored ref := by
  rintro rfl
  rw [stored_status] at h
  split at h <;> omega

/-! ## Answers with an image -/

/-- The first field of a name counts. -/
theorem Fields.get?_self (name value : String) (fs : Fields) :
    Fields.get? ((name, value) :: fs) name = some value := by
  simp [Fields.get?]

/-- An answer that shows data of a type. -/
structure Shows (r : Response) (mime : String) (data : Bytes) : Prop where
  status : r.status = 200
  body : r.body = data
  contentType : r.fields.get? "content-type" = some (contentType mime)

/-- A text that can stand in a header field. -/
def IsLatin1 (text : String) : Prop := ∀ c ∈ text.toList, c.toNat < 256

theorem ofLatin1?_isSome {cs : List Char} :
    (Bytes.ofLatin1? cs).isSome = true ↔ ∀ c ∈ cs, c.toNat < 256 := by
  induction cs with
  | nil => simp [Bytes.ofLatin1?]
  | cons c cs ih =>
    rw [Bytes.ofLatin1?, List.mapM_cons, List.forall_mem_cons, ← ih, Bytes.ofLatin1Char?,
      Bytes.ofLatin1?]
    by_cases hc : c.toNat < 256
    · cases List.mapM Bytes.ofLatin1Char? cs <;> simp [hc]
    · simp [hc]

theorem IsLatin1.contentType {mime : String} (h : IsLatin1 mime) : IsLatin1 (contentType mime) := by
  rw [Http.contentType]
  split
  · have hadded : ("; charset=utf-8".toList.all fun c => c.toNat < 256) = true := by decide
    intro c hc
    rw [String.toList_append, List.mem_append] at hc
    exact hc.elim (h c) fun hc => of_decide_eq_true (List.all_eq_true.1 hadded c hc)
  · exact h

/-- An image is shown with its type. -/
theorem serveImage_shows {object : Store.Loaded} (h : IsLatin1 object.mime) :
    Shows (serveImage object).response object.mime object.data := by
  have hfield := ofLatin1?_isSome.2 h.contentType
  rw [serveImage, Option.isNone_eq_false_iff.2 hfield]
  exact ⟨rfl, rfl, Fields.get?_self _ _ _⟩

/-! ## Paths of images -/

namespace Route

variable {d : String}

theorem imageDigest?_append (d : String) :
    imageDigest? (imageRoot ++ d) = if d = "" ∨ '/' ∈ d.toList then none else some d := by
  have hpre : imageRoot.toList.isPrefixOf (imageRoot ++ d).toList = true := by
    rw [List.isPrefixOf_iff_prefix, String.toList_append]
    exact List.prefix_append _ _
  have hdrop : (imageRoot ++ d).toList.drop imageRoot.length = d.toList := by
    rw [String.toList_append]
    exact List.drop_left
  have hempty : d.toList = [] ↔ d = "" := String.toList_eq_nil_iff
  simp only [imageDigest?, hpre, if_true, hdrop, hempty, String.ofList_toList]

/-- No resource with a path of its own is among the images. -/
theorem ofPath?_image (d : String) :
    ofPath? (imageRoot ++ d) = (imageDigest? (imageRoot ++ d)).map .image := by
  have hne : ∀ path ∈ ["/api/health", "/metrics", "/api/v1/images"], ∀ tail : String,
      imageRoot ++ d ≠ path ++ tail := by
    intro path hpath tail h
    have hlist := congrArg String.toList h
    simp only [String.toList_append] at hlist
    simp only [List.mem_cons, List.not_mem_nil, or_false] at hpath
    rcases hpath with rfl | rfl | rfl <;> simp [imageRoot] at hlist
  have hnone : fixed.find? (fun entry => imageRoot ++ d = entry.1 ∨ imageRoot ++ d = entry.1 ++ "\n") =
      none := by
    rw [List.find?_eq_none]
    intro entry hentry
    have hmem : entry.1 ∈ ["/api/health", "/metrics", "/api/v1/images"] := List.mem_map_of_mem hentry
    simp only [decide_eq_true_eq, not_or]
    refine ⟨fun h => hne _ hmem "" ?_, hne _ hmem "\n"⟩
    rw [h, String.append_empty]
  rw [ofPath?, hnone]

/-- What stands before the slashes at the end of a text. -/
def beforeSlashes (d : String) : List Char := (d.toList.reverse.dropWhile (· == '/')).reverse

/-- Whether a text is a name without slashes, followed by slashes: the path of an image, but for
these. -/
def isRedirected (d : String) : Bool :=
  d.toList.getLast? = some '/' && beforeSlashes d ≠ [] && !(beforeSlashes d).contains '/'

theorem isRedirected_eq_false (h : '/' ∉ d.toList) : isRedirected d = false := by
  have hlast : d.toList.getLast? ≠ some '/' := fun he => h (List.mem_of_getLast? he)
  rw [isRedirected, decide_eq_false hlast]
  rfl

theorem isElsewhere_image (h : d = "" ∨ '/' ∈ d.toList) :
    isElsewhere (imageRoot ++ d) = isRedirected d := by
  have hne : imageRoot ++ d ≠ "/" := by
    intro he
    have hlist := congrArg String.toList he
    rw [String.toList_append] at hlist
    simp [imageRoot] at hlist
  rw [isElsewhere, decide_eq_true hne, Bool.true_and, otherSlash, isRedirected]
  rcases h with rfl | hslash
  · decide +kernel
  have hd : d.toList ≠ [] := List.ne_nil_of_mem hslash
  have hend : (imageRoot ++ d).toList.getLast? = d.toList.getLast? := by
    rw [String.toList_append, List.getLast?_append, Option.or_of_isSome]
    rw [List.getLast?_isSome]
    exact hd
  simp only [hend]
  by_cases hlast : d.toList.getLast? = some '/'
  · rw [if_pos hlast, decide_eq_true hlast, Bool.true_and, String.toList_append,
      List.reverse_append, List.dropWhile_append]
    by_cases hbefore : d.toList.reverse.dropWhile (· == '/') = []
    · rw [beforeSlashes, hbefore]
      decide +kernel
    · have hname : beforeSlashes d ≠ [] := fun he => hbefore (List.reverse_eq_nil_iff.1 he)
      rw [if_neg (by simpa using hbefore), List.reverse_append, List.reverse_reverse, ← beforeSlashes,
        String.ofList_append, String.ofList_toList, ofPath?_image, imageDigest?_append,
        String.toList_ofList, decide_eq_true hname, Bool.true_and]
      have hnonempty : String.ofList (beforeSlashes d) ≠ "" := by
        intro he
        rw [← String.ofList_nil, String.ofList_inj] at he
        exact hname he
      by_cases hmem : '/' ∈ beforeSlashes d
      · rw [if_pos (.inr hmem), List.contains_eq_mem, decide_eq_true hmem]
        rfl
      · rw [if_neg (not_or.2 ⟨hnonempty, hmem⟩), List.contains_eq_mem, decide_eq_false hmem]
        rfl
  · rw [if_neg hlast, decide_eq_false hlast, Bool.false_and, String.append_assoc, ofPath?_image,
      imageDigest?_append, if_pos]
    · rfl
    · right
      simp

end Route

/-- A path below the root of the images that leads to none. -/
theorem nowhere_image {d : String} (h : d = "" ∨ '/' ∈ d.toList) :
    (Site.nowhere (Route.imageRoot ++ d)).status = if Route.isRedirected d then 307 else 404 := by
  rw [Site.nowhere, Route.isElsewhere_image h]
  split <;> rfl

end UploadDepot.Http
