/-
The store in a bucket, over a service that may fail at any request but does
not lie: it takes a write that is refused where there is an object if, and
only if, there is none, and a refusal for an object that is there is never
given where there is none.
-/
import Mathlib.Logic.Function.Basic
import UploadDepot.Proofs.Store.Shelf
import UploadDepot.Store.BucketStore
import UploadDepot.Store.MemoryService

namespace UploadDepot.Store

open Sha256 (hexOf)

/-- Whether a fault refuses a write because there is an object. -/
def ServiceFault.saysPresent : ServiceFault → Bool
  | .refused r => r.codeText ∈ presentCodes
  | _ => false

/-- The answers of a service that does not lie. -/
inductive ServiceWorld : World Request Request.Reply MemoryService
  | serves (request : Request) (s : MemoryService) :
      ServiceWorld request s (MemoryService.serve request s).1 (MemoryService.serve request s).2
  /-- A write that is refused because there is an object, in any of the words for it. -/
  | refuses {put : Put} {fault : ServiceFault} (s : MemoryService) :
      put.onlyIfAbsent = true → s.objects.has (put.bucket, put.key) = true →
      fault.saysPresent = true → ServiceWorld (.putObject put) s (.error fault) s
  /-- A request that fails, and changes nothing. -/
  | fails (request : Request) {fault : ServiceFault} (s : MemoryService) :
      fault.saysPresent = false → ServiceWorld request s (.error fault) s

namespace BucketStore

variable {b : BucketStore} {digest : String} {s : MemoryService}

/-- The objects in the bucket, by key. -/
def objects (b : BucketStore) (s : MemoryService) (key : String) : Option Bytes :=
  (s.objects.get? (b.bucket, key)).map (·.body)

theorem keyOf_injective {digest digest' : String} (h : b.keyOf digest = b.keyOf digest') :
    digest = digest' := by
  have hlist := congrArg String.toList h
  simp only [keyOf, String.toList_append, String.toList_ofList, List.append_assoc] at hlist
  have hrest := List.append_cancel_left (List.append_cancel_left hlist)
  have hlen := congrArg List.length hrest
  simp only [List.length_append, List.length_take] at hlen
  have hsame : digest.toList.length = digest'.toList.length := by omega
  have htail := (List.append_inj hrest (by rw [List.length_take, List.length_take, hsame])).2
  exact String.toList_inj.1 (List.append_cancel_left htail)

theorem isSome_objects (key : String) :
    (b.objects s key).isSome = s.objects.has (b.bucket, key) := by
  rw [objects, Option.isSome_map, Table.has]

theorem present_of_has {key : String} (h : s.objects.has (b.bucket, key) = true) :
    ∃ old, b.objects s key = some old :=
  Option.isSome_iff_exists.1 ((isSome_objects key).trans h)

/-- The question for an object changes nothing, and is not answered with yes for nothing. -/
theorem holds_always {G : MemoryService → MemoryService → Prop} (hg : G s s) (digest : String) :
    (b.holds digest).Always ServiceWorld G
      (fun answer s' => s' = s ∧
        (answer = .ok true → ∃ old, b.objects s (b.keyOf digest) = some old)) s := by
  refine Dialogue.Always.bind ?_
  intro reply s' hw
  have hsame : s' = s := by
    cases hw with
    | serves =>
      rw [MemoryService.serve]
      split <;> rfl
    | fails => rfl
  have hpresent : reply = .ok () → ∃ old, b.objects s (b.keyOf digest) = some old := by
    intro hok
    cases hw with
    | serves =>
      rw [MemoryService.serve] at hok
      split at hok
      · exact present_of_has (by assumption)
      · cases hok
    | fails => cases hok
  subst hsame
  refine ⟨hg, ?_⟩
  match reply with
  | .ok () => exact ⟨rfl, fun _ => hpresent rfl⟩
  | .error (.refused r) =>
    show Dialogue.Always _ _ _ (if r.codeText ∈ missingCodes then _ else _) _
    split
    · exact ⟨rfl, nofun⟩
    · exact ⟨rfl, nofun⟩
  | .error (.unreachable _) => exact ⟨rfl, nofun⟩
  | .error .unspecified => exact ⟨rfl, nofun⟩

theorem objects_set {s' : MemoryService} {key : String} (object : ServedObject)
    (h : s'.objects = s.objects.set (b.bucket, key) object) :
    b.objects s' = Function.update (b.objects s) key (some object.body) := by
  funext other
  rw [objects, h]
  by_cases hk : other = key
  · subst hk
    rw [Table.get?_set_self, Function.update_self]
    rfl
  · rw [Table.get?_set_other _ _ (fun he => hk (Prod.mk.inj he).2), Function.update_of_ne hk]
    rfl

/-- What the service keeps of a write. -/
def written (data : Bytes) (mime : String) : ServedObject :=
  { body := data, notes := [("mime-type", mime)], contentType := some mime }

/-- A conditional write is refused where there is an object, and otherwise creates it. -/
theorem serve_putObject {put : Put} (hbucket : put.bucket = b.bucket) (hcond : put.onlyIfAbsent = true)
    (s : MemoryService) :
    (∃ fault, MemoryService.serve (.putObject put) s = (.error fault, s) ∧
      ∃ old, b.objects s put.key = some old) ∨
    ∃ s', MemoryService.serve (.putObject put) s = (.ok (), s') ∧ b.objects s put.key = none ∧
      b.objects s' = Function.update (b.objects s) put.key (some put.body) := by
  rw [MemoryService.serve, hcond, Bool.true_and, hbucket]
  cases hhas : s.objects.has (b.bucket, put.key) with
  | true => exact .inl ⟨_, if_pos rfl, present_of_has hhas⟩
  | false =>
    have hnone : b.objects s put.key = none := by
      rw [← Option.isNone_iff_eq_none, ← Option.not_isSome, isSome_objects, hhas]
      rfl
    refine .inr ⟨_, if_neg Bool.false_ne_true, hnone, ?_⟩
    exact objects_set (written put.body put.mime) rfl

/-- A conditional write creates the object, or leaves all as it was. -/
theorem putObject_always {wanted : Put} (hbucket : wanted.bucket = b.bucket)
    (hcond : wanted.onlyIfAbsent = true) (hkey : wanted.key = b.keyOf (hexOf wanted.body)) :
    (ServiceTalk.putObject wanted).Always ServiceWorld
      (Grows b.objects b.keyOf (· = wanted.body))
      (fun reply s' =>
        match reply with
        | .ok () => b.objects s wanted.key = none ∧
            b.objects s' = Function.update (b.objects s) wanted.key (some wanted.body)
        | .error fault => s' = s ∧
            (fault.saysPresent = true → ∃ old, b.objects s wanted.key = some old)) s := by
  intro reply s' hw
  cases hw with
  | refuses _ _ hhas =>
    exact ⟨Grows.refl s, rfl, fun _ => present_of_has (hbucket ▸ hhas)⟩
  | fails _ _ hnot =>
    exact ⟨Grows.refl s, rfl, fun hyes => by rw [hnot] at hyes; cases hyes⟩
  | serves =>
    rcases serve_putObject hbucket hcond s with ⟨fault, hserve, hthere⟩ | ⟨s', hserve, hnone, hobjects⟩
    · rw [hserve]
      exact ⟨Grows.refl s, rfl, fun _ => hthere⟩
    rw [hserve]
    refine ⟨fun key => ?_, hnone, hobjects⟩
    rw [hobjects]
    by_cases hk : key = wanted.key
    · subst hk
      exact .inr ⟨hnone, wanted.body, Function.update_self .., hkey, rfl⟩
    · exact .inl (Function.update_of_ne hk ..)

/-- **A commit.** The objects are left as `Commits` says. -/
theorem commit_always (b : BucketStore) (s : MemoryService) (mime : String) (spool : Spool)
    (size : Int) :
    (b.commit (hexOf spool.content) mime spool size).Always ServiceWorld
      (Grows b.objects b.keyOf (· = spool.content))
      (fun committed s' => Commits (b.objects s) (b.objects s') (b.keyOf (hexOf spool.content))
        spool.content committed.value) s := by
  refine Dialogue.Always.bind ((holds_always (Grows.refl s) _).imp ?_)
  rintro (fault | there) _ ⟨rfl, hthere⟩
  · exact Commits.failed rfl
  cases there with
  | true =>
    obtain ⟨old, hold⟩ := hthere rfl
    exact Commits.present hold rfl
  | false =>
    refine Dialogue.Always.bind ((putObject_always (b := b) rfl rfl rfl).imp ?_)
    rintro (fault | _) s' hput
    · obtain ⟨rfl, hpresent⟩ := hput
      match fault with
      | .unreachable _ => exact Commits.failed rfl
      | .unspecified => exact Commits.failed rfl
      | .refused r =>
        show Dialogue.Always _ _ _ (if r.codeText ∈ presentCodes then _ else _) _
        split
        · rename_i hcode
          obtain ⟨old, hold⟩ := hpresent (decide_eq_true hcode)
          exact Commits.present hold rfl
        · split
          -- A rival write: the question is asked again.
          · refine Dialogue.Always.bind ((holds_always (Grows.refl _) _).imp ?_)
            rintro (fault | there) _ ⟨rfl, hthere⟩
            · exact Commits.failed rfl
            cases there with
            | true =>
              obtain ⟨old, hold⟩ := hthere rfl
              exact Commits.present hold rfl
            | false => exact Commits.failed rfl
          · exact Commits.failed rfl
    · obtain ⟨hnone, hobjects⟩ := hput
      refine Commits.created hnone ?_ fun key hk => ?_
      · rw [hobjects]
        exact Function.update_self ..
      · rw [hobjects]
        exact Function.update_of_ne hk ..

/-! ## A service without answers told beforehand -/

theorem answer_eq_serve (h : s.prepared = []) (request : Request) :
    MemoryService.answer request s = MemoryService.serve request s := by
  rw [MemoryService.answer, h]
  rfl

theorem run_holds (h : s.prepared = []) (digest : String) :
    (b.holds digest).run MemoryService.answer s =
      (.ok (s.objects.has (b.bucket, b.keyOf digest)), s) := by
  have hanswer := answer_eq_serve h (.headObject b.bucket (b.keyOf digest))
  rw [MemoryService.serve] at hanswer
  refine (Dialogue.run_andThen MemoryService.answer _ _ s).trans ?_
  rw [ServiceTalk.headObject, Dialogue.run, hanswer]
  cases hhas : s.objects.has (b.bucket, b.keyOf digest) with
  | true => rfl
  | false => rfl

theorem run_putObject (h : s.prepared = []) {put : Put} (hcond : put.onlyIfAbsent = true)
    (hfree : s.objects.has (put.bucket, put.key) = false) :
    (ServiceTalk.putObject put).run MemoryService.answer s =
      (.ok (), { s with
        objects := s.objects.set (put.bucket, put.key) (written put.body put.mime) }) := by
  have hanswer := answer_eq_serve h (.putObject put)
  rw [MemoryService.serve, if_neg (by simp [hcond, hfree])] at hanswer
  rw [ServiceTalk.putObject, Dialogue.run, hanswer]
  rfl

/-- A commit to a service that does as it is asked. -/
theorem run_commit (h : s.prepared = []) (digest mime : String) (spool : Spool) (size : Int) :
    (b.commit digest mime spool size).run MemoryService.answer s =
      if s.objects.has (b.bucket, b.keyOf digest) then (.silent (.ok false), s)
      else (.silent (.ok true), { s with
        objects := s.objects.set (b.bucket, b.keyOf digest) (written spool.content mime) }) := by
  refine (Dialogue.run_andThen MemoryService.answer _ _ s).trans ?_
  rw [run_holds h]
  cases hhas : s.objects.has (b.bucket, b.keyOf digest) with
  | true => rfl
  | false =>
    refine (Dialogue.run_andThen MemoryService.answer (ServiceTalk.putObject _) _ s).trans ?_
    rw [run_putObject h rfl hhas]
    rfl

/-- The object of a digest, as the service holds it. -/
theorem run_load (h : s.prepared = []) (digest : String) :
    (b.load digest).run MemoryService.answer s =
      (.ok ((s.objects.get? (b.bucket, b.keyOf digest)).map b.loaded), s) := by
  have hanswer := answer_eq_serve h (.getObject b.bucket (b.keyOf digest))
  rw [MemoryService.serve] at hanswer
  refine (Dialogue.run_andThen MemoryService.answer _ _ s).trans ?_
  rw [ServiceTalk.getObject, Dialogue.run, hanswer]
  cases s.objects.get? (b.bucket, b.keyOf digest) with
  | some object => rfl
  | none => rfl

/-- The type noted with a write is the one it is handed out with, unless it is empty. -/
theorem loaded_written (data : Bytes) {mime : String} (h : mime ≠ "") :
    b.loaded (written data mime) = { data, mime } := by
  have hnoted : (some mime).filter (· ≠ "") = some mime := by
    rw [Option.filter_some, if_pos (decide_eq_true h)]
  have hfound : (written data mime).notes.get? "mime-type" = some mime := if_pos rfl
  rw [loaded, hfound, hnoted]
  rfl

/-- A bucket that is there, and empty. -/
structure Bare (b : BucketStore) (s : MemoryService) : Prop where
  bucket : b.bucket ∈ s.buckets
  empty : ∀ key, s.objects.get? (b.bucket, key) = none

theorem Bare.objects (h : b.Bare s) (key : String) : b.objects s key = none := by
  rw [BucketStore.objects, h.empty]
  rfl

/-- The store in a bucket as a shelf. -/
def shelf (b : BucketStore) : Shelf Request Request.Reply MemoryService String where
  store := b.store
  world := ServiceWorld
  objects := b.objects
  home := b.keyOf
  home_injective := keyOf_injective
  Ready := fun _ => True
  commits _ mime spool size := (commit_always b _ mime spool size).imp fun _ _ hc => ⟨trivial, hc⟩

end BucketStore

end UploadDepot.Store
