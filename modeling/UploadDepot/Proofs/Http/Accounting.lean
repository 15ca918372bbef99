/-
What is counted of uploads, and what it is counted for.

Every upload asks the limiter once, before anything else, and the decision is
counted whatever comes of it. A client that is turned away costs nothing more.
One that is admitted has its place in the limiter from then on, and the end of
its upload is counted once, as the outcome that its answer shows
(`handle_accounted`). So over a whole run of uploads the counters are what the
answers say (`uploads_accounted`).
-/
import UploadDepot.Proofs.Http.Acceptance
import UploadDepot.Proofs.RateLimit.Admission

namespace UploadDepot

namespace Http

open RateLimit (Decision Limiter Operation Scope WholeSeconds)
open Store (Disk)
open Upload (Outcome Pipeline)

/-! ## One upload -/

/-- The outcomes that uploads come to, and the status of the answer to each. -/
def answeredOutcomes : List (Outcome × Nat) :=
  [(.fresh, 201), (.duplicate, 200), (.tooLarge, 413), (.unsupportedType, 415), (.streamError, 400),
   (.storageError, 500)]

/-- No two outcomes come to an answer of one status. -/
theorem answeredOutcomes_inj {o o' : Outcome} {status : Nat} (h : (o, status) ∈ answeredOutcomes)
    (h' : (o', status) ∈ answeredOutcomes) : o = o' := by
  simp only [answeredOutcomes, List.mem_cons, Prod.mk.injEq, List.not_mem_nil, or_false] at h h'
  rcases h with ⟨rfl, rfl⟩ | ⟨rfl, rfl⟩ | ⟨rfl, rfl⟩ | ⟨rfl, rfl⟩ | ⟨rfl, rfl⟩ | ⟨rfl, rfl⟩ <;> simp_all

/-- The counters of a site. -/
abbrev Site.counted {τ : Type} (site : Site τ) : Metrics := site.gate.metrics

variable {Q : Type} {A : Q → Type} {σ τ : Type}

/-- A client that is turned away is told when to come back. -/
theorem retryAfter_turnedAway (denial : RateLimit.Denial) :
    (Site.turnedAway (.limited denial)).response.fields.get? "retry-after" =
      some (toString denial.retryAfter) := by
  have htype : Text.lowerString "content-type" ≠ Text.lowerString "retry-after" := by decide +kernel
  have hlength : Text.lowerString "content-length" ≠ Text.lowerString "retry-after" := by decide +kernel
  simp [Site.turnedAway, answerDetail, answerJson, Http.answer, Fields.get?, htype, hlength]

section One

/-- How an upload was decided, answered and counted, and what it has left of the site and of its
world. -/
structure Accounted [Sub τ] [LE τ] [DecidableLE τ] (seconds : Int) (site : Site τ) (s : σ) (client : String) (now : τ)
    (decision : Decision) (exchange : Exchange) (site' : Site τ) (s' : σ) : Prop where
  decided : (site.gate.limiter.call .uploadFile client now).1 = .ok decision
  /-- What the upload takes in the limiter it takes with its call, and nothing gives it back. -/
  limiter : site'.gate.limiter = (site.gate.limiter.call .uploadFile client now).2
  decisions : ∀ scope d, site'.counted.decided scope d =
    site.counted.decided scope d + if scope = .uploadFile ∧ d = decision then 1 else 0
  denied : decision = .denied →
    exchange.response.status = 429 ∧
      exchange.response.fields.get? "retry-after" = some (toString seconds) ∧
      exchange.consumed = 0 ∧ exchange.escaped = none ∧ s' = s ∧
      ∀ o, site'.counted.ended o = site.counted.ended o
  ended : decision = .allowed → exchange.escaped = none →
    ∃ outcome, (outcome, exchange.response.status) ∈ answeredOutcomes ∧
      ∀ o, site'.counted.ended o = site.counted.ended o + if o = outcome then 1 else 0
  escaped : decision = .allowed → exchange.escaped.isSome = true →
    exchange.response.status = 500 ∧ ∀ o, site'.counted.ended o = site.counted.ended o

/-- The end of an admitted upload is counted as the outcome that its answer shows, unless it has no
answer of its own. -/
theorem conclude_counts (site : Site τ) {attempt : Upload.Attempt}
    (h : ∀ {e}, attempt.result = .error e → e.Specific) :
    ((site.conclude attempt).1.escaped = none ∧
      ∃ outcome, (outcome, (site.conclude attempt).1.response.status) ∈ answeredOutcomes ∧
        (site.conclude attempt).2 = site.count outcome) ∨
    (site.conclude attempt).1.escaped.isSome = true ∧
      (site.conclude attempt).1.response.status = 500 ∧ (site.conclude attempt).2 = site := by
  cases hresult : attempt.result with
  | ok ref =>
    rw [Site.conclude, hresult]
    refine .inl ⟨rfl, ref.outcome, ?_, rfl⟩
    dsimp only
    rw [stored_status, Upload.Ref.outcome]
    cases ref.duplicate <;> decide
  | error e =>
    rw [Site.conclude, hresult]
    cases e with
    | told e =>
      refine .inl ⟨rfl, e.outcome, ?_, rfl⟩
      show (e.outcome, e.outcome.status) ∈ answeredOutcomes
      cases e with
      | general text => exact absurd rfl (h hresult text)
      | tooLarge | unsupportedType | stream | storage =>
        simp [Upload.UploadError.outcome, Outcome.status, answeredOutcomes]
    | stray stray => exact .inr ⟨rfl, rfl, rfl⟩

variable [Sub τ] [LE τ] [DecidableLE τ]

/-- The site once the limiter has decided on an upload. -/
def Site.deciding (site : Site τ) (client : String) (now : τ) (decision : Decision) : Site τ :=
  { site with gate := { limiter := (site.gate.limiter.call .uploadFile client now).2
                        metrics := site.gate.metrics.countDecision .uploadFile decision } }

theorem decided_deciding (site : Site τ) (client : String) (now : τ) (decision : Decision) (scope : Scope)
    (d : Decision) :
    (site.deciding client now decision).counted.decided scope d =
      site.counted.decided scope d + if scope = .uploadFile ∧ d = decision then 1 else 0 :=
  Metrics.decided_countDecision _ _ _ _ _

variable [WholeSeconds τ] {site : Site τ} {p : Pipeline Q A} {answer : (q : Q) → σ → A q × σ} {s : σ}
  {request : Request} {client : String} {now : τ} {seconds : Int}

/-- A client that is turned away: nothing else is done. -/
theorem handle_denied (hsweep : site.gate.limiter.sweepEvery ≠ 0)
    (hseconds : WholeSeconds.wholeSeconds (site.gate.limiter.rules .uploadFile).window = .ok seconds)
    (h : request.IsUpload) (hclient : clientAddress request.fields request.peer = client)
    (hcall : (site.gate.limiter.call .uploadFile client now).1 = .ok .denied) :
    (site.handle p request now).run answer s =
      (({ Site.turnedAway (.limited { scope := .uploadFile, retryAfter := seconds }) with
          lines := [RateLimit.denialLine .uploadFile client] },
        site.deciding client now .denied), s) := by
  rw [handle_upload h, Site.upload]
  dsimp only
  rw [hclient, RateLimit.Gate.enter_denied hsweep hseconds hcall]
  rfl

/-- A client that is admitted: the upload is received, and its end is answered. -/
theorem handle_admitted (h : request.IsUpload)
    (hclient : clientAddress request.fields request.peer = client)
    (hcall : (site.gate.limiter.call .uploadFile client now).1 = .ok .allowed) :
    (site.handle p request now).run answer s =
      ((site.deciding client now .allowed).conclude ((p.receive request).run answer s).1,
        ((p.receive request).run answer s).2) := by
  rw [handle_upload h, Site.upload]
  dsimp only
  rw [hclient, RateLimit.Gate.enter_allowed hcall]
  exact Dialogue.run_andThen answer (p.receive request) _ s

/-- **One upload**, of any client and with any body, over any store. -/
theorem handle_accounted (answer : (q : Q) → σ → A q × σ) (hsweep : site.gate.limiter.sweepEvery ≠ 0)
    (hseconds : WholeSeconds.wholeSeconds (site.gate.limiter.rules .uploadFile).window = .ok seconds)
    (h : request.IsUpload) (now : τ) :
    ∃ decision, Accounted seconds site s (clientAddress request.fields request.peer) now decision
      ((site.handle p request now).run answer s).1.1 ((site.handle p request now).run answer s).1.2
      ((site.handle p request now).run answer s).2 := by
  generalize hclient : clientAddress request.fields request.peer = client
  obtain ⟨⟨decision, hcall⟩, -⟩ :=
    Limiter.call_answered (l := site.gate.limiter) hsweep .uploadFile client now
  refine ⟨decision, ?_⟩
  cases decision with
  | denied =>
    rw [handle_denied hsweep hseconds h hclient hcall]
    exact ⟨hcall, rfl, decided_deciding site client now .denied,
      fun _ => ⟨rfl, retryAfter_turnedAway _, rfl, rfl, rfl, fun _ => rfl⟩, nofun, nofun⟩
  | allowed =>
    rw [handle_admitted h hclient hcall]
    have hspecific : ∀ {e}, ((p.receive request).run answer s).1.result = .error e → e.Specific :=
      fun he => Upload.receive_specific he
    generalize (p.receive request).run answer s = received at hspecific
    obtain ⟨attempt, s'⟩ := received
    dsimp only at hspecific ⊢
    rcases conclude_counts (site.deciding client now .allowed) hspecific with
      ⟨hescaped, outcome, hstatus, hsite⟩ | ⟨hescaped, hstatus, hsite⟩
    · rw [hsite]
      refine ⟨hcall, rfl, decided_deciding site client now .allowed, nofun, fun _ _ => ?_, fun _ hsome => ?_⟩
      · exact ⟨outcome, hstatus, fun o => Metrics.ended_countUpload _ _ _⟩
      · rw [hescaped] at hsome
        cases hsome
    · rw [hsite]
      refine ⟨hcall, rfl, decided_deciding site client now .allowed, nofun, fun _ hnone => ?_, fun _ _ => ?_⟩
      · rw [hnone] at hescaped
        cases hescaped
      · exact ⟨hstatus, fun _ => rfl⟩

end One

/-! ## A run of uploads -/

section Run

variable [Sub τ] [LE τ] [DecidableLE τ]

/-- Uploads, each at its instant, as events of a site. -/
def eventsOf (posts : List (Request × τ)) : List (Event τ) :=
  posts.map fun post => .request post.1 post.2

/-- The calls of uploads to the limiter. -/
def callsOf (posts : List (Request × τ)) : List (Operation τ) :=
  posts.map fun post => .call .uploadFile (clientAddress post.1.fields post.1.peer) post.2

/-- What an answer tells of the decision on the client. -/
def Exchange.decision (e : Exchange) : Decision := if e.response.status = 429 then .denied else .allowed

/-- Whether an upload has ended in an answer of that outcome. -/
def Exchange.endedIn (outcome : Outcome) (e : Exchange) : Bool :=
  e.escaped.isNone && decide ((outcome, e.response.status) ∈ answeredOutcomes)

/-- The limiter and the counters after a run of uploads, as the answers say. -/
structure Balanced (site : Site τ) (posts : List (Request × τ)) (exchanges : List Exchange)
    (site' : Site τ) : Prop where
  limiter : site'.gate.limiter = site.gate.limiter.after (callsOf posts)
  answers : site.gate.limiter.answers (callsOf posts) = exchanges.map fun e => some (.ok e.decision)
  decisions : ∀ d, site'.counted.decided .uploadFile d =
    site.counted.decided .uploadFile d + exchanges.countP (·.decision = d)
  /-- No other action is counted. -/
  others : ∀ scope d, scope ≠ .uploadFile →
    site'.counted.decided scope d = site.counted.decided scope d
  ended : ∀ o, site'.counted.ended o = site.counted.ended o + exchanges.countP (·.endedIn o)

/-- The decision on an upload shows in the status of its answer. -/
theorem Accounted.decision_eq {seconds : Int} {site site' : Site τ} {s s' : σ} {client : String}
    {now : τ} {decision : Decision} {exchange : Exchange}
    (h : Accounted seconds site s client now decision exchange site' s') :
    exchange.decision = decision := by
  rw [Exchange.decision]
  cases decision with
  | denied => rw [if_pos (h.denied rfl).1]
  | allowed =>
    refine if_neg fun hstatus => ?_
    cases hescaped : exchange.escaped with
    | none =>
      obtain ⟨outcome, hmem, -⟩ := h.ended rfl hescaped
      rw [hstatus] at hmem
      simp [answeredOutcomes] at hmem
    | some escape =>
      have hbroken := (h.escaped rfl (by rw [hescaped]; rfl)).1
      omega

/-- What one upload adds to the count of an outcome shows in its answer. -/
theorem Accounted.ended_eq {seconds : Int} {site site' : Site τ} {s s' : σ} {client : String}
    {now : τ} {decision : Decision} {exchange : Exchange}
    (h : Accounted seconds site s client now decision exchange site' s') (o : Outcome) :
    site'.counted.ended o = site.counted.ended o + if exchange.endedIn o then 1 else 0 := by
  cases decision with
  | denied =>
    obtain ⟨hstatus, -, -, -, -, hsame⟩ := h.denied rfl
    have hnot : exchange.endedIn o = false := by
      simp [Exchange.endedIn, hstatus, answeredOutcomes]
    rw [hsame, hnot]
    rfl
  | allowed =>
    cases hescaped : exchange.escaped with
    | none =>
      obtain ⟨outcome, hmem, hcount⟩ := h.ended rfl hescaped
      have hiff : exchange.endedIn o = true ↔ o = outcome := by
        simp only [Exchange.endedIn, hescaped, Option.isNone_none, Bool.true_and, decide_eq_true_eq]
        exact ⟨fun ho => answeredOutcomes_inj ho hmem, fun ho => ho ▸ hmem⟩
      rw [hcount]
      simp only [hiff]
    | some escape =>
      have hsame := (h.escaped rfl (by rw [hescaped]; rfl)).2
      have hnot : exchange.endedIn o = false := by rw [Exchange.endedIn, hescaped]; rfl
      rw [hsame, hnot]
      rfl

/-- One upload more, before a run. -/
theorem Balanced.cons {seconds : Int} {site site₁ site' : Site τ} {s s₁ : σ} {request : Request}
    {now : τ} {decision : Decision} {exchange : Exchange} {posts : List (Request × τ)}
    {exchanges : List Exchange}
    (h : Accounted seconds site s (clientAddress request.fields request.peer) now decision exchange
      site₁ s₁)
    (hrest : Balanced site₁ posts exchanges site') :
    Balanced site ((request, now) :: posts) (exchange :: exchanges) site' where
  limiter := by
    rw [hrest.limiter, h.limiter]
    rfl
  answers := by
    have hanswers := hrest.answers
    rw [h.limiter] at hanswers
    rw [callsOf, List.map_cons, Limiter.answers, List.map_cons, h.decision_eq]
    exact congrArg₂ List.cons (congrArg some h.decided) hanswers
  decisions := by
    intro d
    have hfirst := h.decisions .uploadFile d
    have hrest := hrest.decisions d
    rw [List.countP_cons, h.decision_eq]
    simp only [true_and, eq_comm (a := d)] at hfirst
    simp only [decide_eq_true_eq]
    omega
  others := by
    intro scope d hscope
    rw [hrest.others scope d hscope, h.decisions, if_neg fun hand => hscope hand.1, Nat.add_zero]
  ended := by
    intro o
    have hfirst := h.ended_eq o
    have hrest := hrest.ended o
    rw [List.countP_cons]
    omega

variable [WholeSeconds τ]

/-- **Uploads and their counters.** In a run of uploads of any clients, with any bodies, over any store,
every upload is accounted for where the run has come to; and after the run the limiter is what the
calls alone make of it, its decisions are those that the answers tell, and every counter has gone up
by the number of answers it is for. -/
theorem uploads_accounted (site : Site τ) (p : Pipeline Q A) (answer : (q : Q) → σ → A q × σ) (s : σ)
    {seconds : Int} (hsweep : site.gate.limiter.sweepEvery ≠ 0)
    (hseconds : WholeSeconds.wholeSeconds (site.gate.limiter.rules .uploadFile).window = .ok seconds)
    (posts : List (Request × τ)) (hposts : ∀ post ∈ posts, post.1.IsUpload) :
    (∀ before request now later, posts = before ++ (request, now) :: later →
      let reached := (site.serveAll p answer s (eventsOf before)).2
      let handled := (reached.1.handle p request now).run answer reached.2
      ∃ decision, Accounted seconds reached.1 reached.2 (clientAddress request.fields request.peer) now
        decision handled.1.1 handled.1.2 handled.2) ∧
    Balanced site posts ((site.serveAll p answer s (eventsOf posts)).1.map (·.2))
      (site.serveAll p answer s (eventsOf posts)).2.1 := by
  induction posts generalizing site s with
  | nil =>
    refine ⟨fun before request now later h => ?_, rfl, rfl, fun d => rfl, fun _ _ _ => rfl, fun o => rfl⟩
    cases before <;> cases h
  | cons post posts ih =>
    obtain ⟨request, now⟩ := post
    obtain ⟨decision, hfirst⟩ := handle_accounted (p := p) (s := s) answer hsweep hseconds
      (hposts _ List.mem_cons_self) now
    obtain ⟨-, hrules, hsweeps⟩ := Limiter.call_answered hsweep .uploadFile
      (clientAddress request.fields request.peer) now
    rw [← hfirst.limiter] at hrules hsweeps
    obtain ⟨hsteps, hrun⟩ := ih ((site.handle p request now).run answer s).1.2
      ((site.handle p request now).run answer s).2 (hsweeps ▸ hsweep) (hrules ▸ hseconds)
      (fun post hpost => hposts post (List.mem_cons_of_mem _ hpost))
    refine ⟨fun before request' now' later h => ?_, .cons hfirst hrun⟩
    cases before with
    | nil =>
      cases h
      exact ⟨decision, hfirst⟩
    | cons first before =>
      obtain ⟨rfl, hlater⟩ := List.cons.inj h
      exact hsteps before request' now' later hlater

end Run

/-! ## Three uploads -/

/-- A site that admits each client once in ten seconds. -/
def onceSite : Site Int where
  gate :=
    { limiter := { rules := fun _ => { limit := 1, window := 10 }
                   enabled := true
                   sweepEvery := 1024
                   spread := fun _ => 0
                   shards := [{}] } }

/-- One client uploads twice, and then another the same. -/
def threePosts : List (Request × Int) :=
  [(twoPost, 0), (twoPost, 3), ({ twoPost with peer := some "10.0.0.2" }, 4)]

/-- The first upload is stored, the second is turned away, and the third finds its image there. -/
theorem uploads_accounted_three :
    let run := onceSite.serveAll smallPipeline Disk.answer smallDisk (eventsOf threePosts)
    onceSite.gate.limiter.sweepEvery ≠ 0 ∧
      WholeSeconds.wholeSeconds (onceSite.gate.limiter.rules .uploadFile).window = .ok 10 ∧
      (∀ post ∈ threePosts, post.1.IsUpload) ∧
      run.1.map (·.2.response.status) = [201, 429, 200] ∧
      Balanced onceSite threePosts (run.1.map (·.2)) run.2.1 := by
  have hposts : ∀ post ∈ threePosts, post.1.IsUpload := by
    intro post hpost
    simp only [threePosts, List.mem_cons, List.not_mem_nil, or_false] at hpost
    rcases hpost with rfl | rfl | rfl <;> exact two_sends.upload
  obtain ⟨-, hbalanced⟩ := uploads_accounted onceSite smallPipeline Disk.answer smallDisk
    (by decide) rfl threePosts hposts
  exact ⟨by decide, rfl, hposts, by decide +kernel, hbalanced⟩

end Http

end UploadDepot
