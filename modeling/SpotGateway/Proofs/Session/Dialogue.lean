import Mathlib.Data.List.Forall2
import SpotGateway.Proofs.Session.Stopped

/-!
# Dialogues

All that can be done with a session, one move after another, and what comes of each move.  A run
ends where a move is stopped; a course goes on with what is left of the session then, and notes are
taken of it.

* `Session.Fresh`, `Session.Fresh.eq` — sessions that nothing was done with;
* `Move`, `Reaction` — what is done, and what comes of it;
* `Dialogue`, `Dialogue.step`, `Dialogue.run` — a session with the calls that are on their way, and
  its runs;
* `Dialogue.run_cons_eq_ok`, `Dialogue.run_cons_eq_error` — the first move of a run and the rest;
* `Dialogue.run_eq_error_iff` — a run that is stopped is stopped by one of its moves;
* `Dialogue.invariant_of_run` — what every move keeps;
* `Dialogue.matched_of_run` — two runs of the same moves;
* `Dialogue.attempt`, `Dialogue.course`, `Dialogue.after` — a move that may be stopped, and courses
  of them, with notes and without;
* `Dialogue.Attempted`, `Dialogue.attempted_of_attempt` — all that a move can do;
* `Dialogue.course_invariant`, `Dialogue.after_invariant` — what every move keeps;
* `Dialogue.after_of_run` — runs, which are not stopped.
-/

set_option autoImplicit false

namespace SpotGateway

/-- Nothing was done with the session, but perhaps to give it other credentials. -/
inductive Session.Fresh : Session → Prop where
  | created {config : Config} {credentials : Credentials} {s : Session}
      (h : Session.create config credentials = .ok s) : Fresh s
  | withLocalAuthenticator {s : Session} (h : Fresh s) (authenticator : Authenticator) :
      Fresh (s.withLocalAuthenticator authenticator)

/-- Sessions that nothing was done with differ in their settings and in how they sign. -/
theorem Session.Fresh.eq {s : Session} (hs : s.Fresh) :
    ∃ config authenticator signsServerTime table, Table.build Exchange.tiers = .ok table ∧ s = {
      config
      authenticator
      signsServerTime
      limiter := .create 0 table
      symbols := .create config.missingStatus
      rules := []
      tracker := .empty
      clock := .unshifted } := by
  induction hs with
  | created h =>
    obtain ⟨table, htable, rfl⟩ := Session.create_eq_ok h
    exact ⟨_, _, _, table, htable, rfl⟩
  | withLocalAuthenticator h authenticator ih =>
    obtain ⟨config, _, _, table, htable, rfl⟩ := ih
    exact ⟨config, authenticator, false, table, htable, rfl⟩

/-- Something that is done with a session. -/
inductive Move where
  | start (now : Readings) (expired : Bool) (call : Call)
  /-- The numbered call on its way is finished. -/
  | finish (number : Nat) (now : Readings) (delivery : Http.Delivery)
  | nextSequence (now : Timestamp)
  | track (o : InFlightOrder)
  | applyUpdate (u : OrderUpdate)
  | acknowledge (clientId : String)
  | usage (tier : String) (now : Timestamp)
  | usages (now : Timestamp)
  | streamEvent (frame : String)
  | subscribe (pairs : List String) (id : Nat)

/-- What comes of a move. -/
inductive Reaction where
  /-- The request of the call is on its way. -/
  | sent (p : Pending)
  /-- The call has come to its end, be it before anything was sent. -/
  | answered (result : Except GatewayError Answer)
  /-- There is no such call on its way. -/
  | nothing
  | place (sequence : Nat)
  | tracked (result : Except GatewayError Unit)
  | updated (result : Except GatewayError UpdateOutcome)
  | acknowledged (result : Except GatewayError InFlightOrder)
  | usage (result : Except ThrottleError Usage)
  | usages (us : List Usage)
  | event (result : Except GatewayError (Option StreamEvent))
  | subscription (result : Except GatewayError Json.Value)

/-- A session with the calls that are on their way. -/
structure Dialogue where
  session : Session
  waiting : List Pending

namespace Dialogue

/-- A session that nothing was done with. -/
def opening (s : Session) : Dialogue := ⟨s, []⟩

/-- One move. -/
def step (d : Dialogue) : Move → Checked (Dialogue × Reaction)
  | .start now expired call => do
    match ← d.session.start now expired call with
    | (session, .ok p) => return (⟨session, d.waiting ++ [p]⟩, .sent p)
    | (session, .error e) => return (⟨session, d.waiting⟩, .answered (.error e))
  | .finish number now delivery =>
    match d.waiting[number]? with
    | some p => do
      let (session, result) ← d.session.finish now p delivery
      return (⟨session, d.waiting.eraseIdx number⟩, .answered result)
    | none => .ok (d, .nothing)
  | .nextSequence now =>
    let (session, place) := d.session.nextSequence now
    .ok (⟨session, d.waiting⟩, .place place)
  | .track o =>
    let (session, result) := d.session.track o
    .ok (⟨session, d.waiting⟩, .tracked result)
  | .applyUpdate u =>
    let (session, result) := d.session.applyUpdate u
    .ok (⟨session, d.waiting⟩, .updated result)
  | .acknowledge clientId =>
    let (session, result) := d.session.acknowledge clientId
    .ok (⟨session, d.waiting⟩, .acknowledged result)
  | .usage tier now => do
    let (limiter, result) ← d.session.limiter.usage tier now
    return (⟨{ d.session with limiter }, d.waiting⟩, .usage result)
  | .usages now => do
    let (limiter, us) ← d.session.limiter.usages now
    return (⟨{ d.session with limiter }, d.waiting⟩, .usages us)
  | .streamEvent frame => .ok (d, .event (d.session.streamEvent frame))
  | .subscribe pairs id => .ok (d, .subscription (d.session.subscription pairs id))

/-- One move after another, with what comes of each. -/
def run (d : Dialogue) : List Move → Checked (Dialogue × List Reaction)
  | [] => .ok (d, [])
  | move :: rest => do
    let (d, reaction) ← d.step move
    let (d, reactions) ← d.run rest
    return (d, reaction :: reactions)

variable {d d' : Dialogue}

theorem run_cons_eq_ok {move : Move} {rest : List Move} {reactions : List Reaction} :
    d.run (move :: rest) = .ok (d', reactions) ↔
      ∃ d₁ reaction later, d.step move = .ok (d₁, reaction) ∧ d₁.run rest = .ok (d', later) ∧
        reactions = reaction :: later := by
  constructor
  · intro h
    obtain ⟨⟨d₁, reaction⟩, hstep, h⟩ := bind_eq_ok.mp h
    obtain ⟨⟨d₂, later⟩, hrest, h⟩ := bind_eq_ok.mp h
    cases h
    exact ⟨d₁, reaction, later, hstep, hrest, rfl⟩
  · rintro ⟨d₁, reaction, later, hstep, hrest, rfl⟩
    simp only [run, hstep, bind, Except.bind, hrest]
    rfl

theorem run_cons_eq_error {move : Move} {rest : List Move} {fault : Fault} :
    d.run (move :: rest) = .error fault ↔
      d.step move = .error fault ∨
        ∃ d₁ reaction, d.step move = .ok (d₁, reaction) ∧ d₁.run rest = .error fault := by
  constructor
  · intro h
    rcases bind_eq_error.mp h with hstopped | ⟨⟨d₁, reaction⟩, hmove, h⟩
    · exact .inl hstopped
    · rcases bind_eq_error.mp h with hrest | ⟨⟨d₂, later⟩, -, h⟩
      · exact .inr ⟨d₁, reaction, hmove, hrest⟩
      · cases h
  · rintro (hstopped | ⟨d₁, reaction, hmove, hrest⟩)
    · simp only [run, hstopped, bind, Except.bind]
    · simp only [run, hmove, bind, Except.bind, hrest]

/-- What every move of a run keeps is kept to its end. -/
theorem invariant_of_run {P : Dialogue → Prop} {moves : List Move}
    (hstep : ∀ d move d₁ reaction, P d → move ∈ moves → d.step move = .ok (d₁, reaction) → P d₁)
    {reactions : List Reaction} (hd : P d) (hrun : d.run moves = .ok (d', reactions)) : P d' := by
  induction moves generalizing d reactions with
  | nil =>
    cases hrun
    exact hd
  | cons move rest ih =>
    obtain ⟨d₁, reaction, later, hmove, hrest, rfl⟩ := run_cons_eq_ok.mp hrun
    refine ih (fun d move d₁ reaction hd hmem => hstep d move d₁ reaction hd
      (List.mem_cons_of_mem _ hmem)) ?_ hrest
    exact hstep d move d₁ reaction hd List.mem_cons_self hmove

theorem run_append_eq_error {before rest : List Move} {reactions : List Reaction} {fault : Fault}
    (hbefore : d.run before = .ok (d', reactions)) (hrest : d'.run rest = .error fault) :
    d.run (before ++ rest) = .error fault := by
  induction before generalizing d reactions with
  | nil =>
    cases hbefore
    exact hrest
  | cons move before ih =>
    obtain ⟨d₁, reaction, later, hmove, hlater, -⟩ := run_cons_eq_ok.mp hbefore
    exact run_cons_eq_error.mpr (.inr ⟨d₁, reaction, hmove, ih hlater⟩)

/-- A run that is stopped is stopped by one of its moves, after others that were carried out. -/
theorem run_eq_error_iff {moves : List Move} {fault : Fault} :
    d.run moves = .error fault ↔
      ∃ before move after d₁ reactions, moves = before ++ move :: after ∧
        d.run before = .ok (d₁, reactions) ∧ d₁.step move = .error fault := by
  constructor
  · intro h
    induction moves generalizing d with
    | nil => cases h
    | cons move rest ih =>
      rcases run_cons_eq_error.mp h with hstopped | ⟨d₁, reaction, hmove, h⟩
      · exact ⟨[], move, rest, d, [], rfl, rfl, hstopped⟩
      · obtain ⟨before, last, after, d₂, reactions, rfl, hbefore, hlast⟩ := ih h
        exact ⟨move :: before, last, after, d₂, reaction :: reactions, rfl,
          run_cons_eq_ok.mpr ⟨d₁, reaction, reactions, hmove, hbefore, rfl⟩, hlast⟩
  · rintro ⟨before, move, after, d₁, reactions, rfl, hbefore, hlast⟩
    exact run_append_eq_error hbefore (run_cons_eq_error.mpr (.inl hlast))

/-! ## Two runs -/

/-- In the same place of lists whose entries are related there are related entries, or none. -/
theorem getElem?_of_forall₂ {α β : Type} {R : α → β → Prop} {xs : List α} {ys : List β}
    (h : List.Forall₂ R xs ys) (n : Nat) :
    xs[n]? = none ∧ ys[n]? = none ∨ ∃ x y, xs[n]? = some x ∧ ys[n]? = some y ∧ R x y := by
  induction h generalizing n with
  | nil => exact Or.inl ⟨rfl, rfl⟩
  | cons hxy _ ih =>
    cases n with
    | zero => exact Or.inr ⟨_, _, rfl, rfl, hxy⟩
    | succ n => exact ih n

theorem eraseIdx_of_forall₂ {α β : Type} {R : α → β → Prop} {xs : List α} {ys : List β}
    (h : List.Forall₂ R xs ys) (n : Nat) : List.Forall₂ R (xs.eraseIdx n) (ys.eraseIdx n) := by
  rw [List.eraseIdx_eq_take_drop_succ, List.eraseIdx_eq_take_drop_succ]
  exact List.rel_append (List.forall₂_take n h) (List.forall₂_drop (n + 1) h)

/-- Runs of the same moves stay alike if every move keeps them so. -/
theorem matched_of_run {R : Dialogue → Dialogue → Prop} {S : Reaction → Reaction → Prop}
    (hstep : ∀ d₁ d₂ move, R d₁ d₂ →
      Matched (fun x y => R x.1 y.1 ∧ S x.2 y.2) (d₁.step move) (d₂.step move))
    {d₁ d₂ : Dialogue} (h : R d₁ d₂) (moves : List Move) :
    Matched (fun x y => R x.1 y.1 ∧ List.Forall₂ S x.2 y.2) (d₁.run moves) (d₂.run moves) := by
  induction moves generalizing d₁ d₂ with
  | nil => exact .ok ⟨h, .nil⟩
  | cons move rest ih =>
    refine (hstep d₁ d₂ move h).bind fun x y hxy => ?_
    exact (ih hxy.1).bind fun x' y' hrest => .ok ⟨hrest.1, .cons hxy.2 hrest.2⟩

/-! ## Courses -/

/-- What is left of a dialogue when a move is stopped. -/
def afterStopped (d : Dialogue) : Move → Dialogue
  | .start now _ call => ⟨d.session.afterStoppedStart now call, d.waiting⟩
  | .finish number now delivery =>
    match d.waiting[number]? with
    | some p => ⟨d.session.afterStoppedFinish now p delivery, d.waiting.eraseIdx number⟩
    | none => d
  | .usage tier now =>
    ⟨{ d.session with limiter := d.session.limiter.afterStoppedUsage tier now }, d.waiting⟩
  | .usages now =>
    ⟨{ d.session with limiter := d.session.limiter.afterStoppedUsages now }, d.waiting⟩
  | _ => d

/-- One move, as far as it goes. -/
def attempt (d : Dialogue) (move : Move) : Dialogue × Checked Reaction :=
  Checked.orLeave (d.step move) (d.afterStopped move)

/-- One move after another, stopped or not.  Of every move a note is taken: it is made from what was
noted before, the dialogue ahead of the move, the move itself and what came of it. -/
def course {α : Type} (note : α → Dialogue → Move → Checked Reaction → α) (d : Dialogue)
    (noted : α) : List Move → Dialogue × α
  | [] => (d, noted)
  | move :: rest =>
    let (d', reaction) := d.attempt move
    course note d' (note noted d move reaction) rest

/-- What a course comes to, whatever notes are taken of it. -/
def after (d : Dialogue) (moves : List Move) : Dialogue :=
  moves.foldl (fun d move => (d.attempt move).1) d

theorem course_fst {α : Type} (note : α → Dialogue → Move → Checked Reaction → α) (d : Dialogue)
    (noted : α) (moves : List Move) : (course note d noted moves).1 = d.after moves := by
  induction moves generalizing d noted with
  | nil => rfl
  | cons move rest ih => exact ih _ _

theorem attempt_of_step {move : Move} {reaction : Reaction}
    (h : d.step move = .ok (d', reaction)) : d.attempt move = (d', .ok reaction) := by
  rw [attempt, h]
  rfl

/-- Where every move is carried out, a course is a run. -/
theorem after_of_run {moves : List Move} {reactions : List Reaction}
    (hrun : d.run moves = .ok (d', reactions)) : d.after moves = d' := by
  induction moves generalizing d reactions with
  | nil =>
    cases hrun
    rfl
  | cons move rest ih =>
    obtain ⟨d₁, reaction, later, hmove, hrest, -⟩ := run_cons_eq_ok.mp hrun
    rw [after, List.foldl_cons, attempt_of_step hmove]
    exact ih hrest

/-- What every move keeps, together with what is noted of it, is kept to the end of a course. -/
theorem course_invariant {α : Type} {note : α → Dialogue → Move → Checked Reaction → α}
    {P : Dialogue → α → Prop}
    (hstep : ∀ d noted move d₁ reaction, P d noted → d.attempt move = (d₁, reaction) →
      P d₁ (note noted d move reaction))
    {noted noted' : α} {moves : List Move} (hd : P d noted)
    (hcourse : course note d noted moves = (d', noted')) : P d' noted' := by
  induction moves generalizing d noted with
  | nil =>
    cases hcourse
    exact hd
  | cons move rest ih =>
    exact ih (hstep d noted move _ _ hd rfl) hcourse

/-- What every move keeps is kept to the end of a course. -/
theorem after_invariant {P : Dialogue → Prop} {moves : List Move}
    (hstep : ∀ d, P d → ∀ move ∈ moves, P (d.attempt move).1) (hd : P d) : P (d.after moves) :=
  List.foldlRecOn moves _ hd hstep

/-- All that a move can do, stopped or not. -/
inductive Attempted (d : Dialogue) : Move → Dialogue → Checked Reaction → Prop where
  /-- A request goes out. -/
  | sent {now : Readings} {expired : Bool} {call : Call} {session : Session} {p : Pending}
      (half : d.session.attemptStart now expired call = (session, .ok (.ok p))) :
      Attempted d (.start now expired call) ⟨session, d.waiting ++ [p]⟩ (.ok (.sent p))
  | refused {now : Readings} {expired : Bool} {call : Call} {session : Session}
      {error : GatewayError}
      (half : d.session.attemptStart now expired call = (session, .ok (.error error))) :
      Attempted d (.start now expired call) ⟨session, d.waiting⟩ (.ok (.answered (.error error)))
  /-- A call is stopped before its request goes out. -/
  | unsent {now : Readings} {expired : Bool} {call : Call} {session : Session} {fault : Fault}
      (half : d.session.attemptStart now expired call = (session, .error fault)) :
      Attempted d (.start now expired call) ⟨session, d.waiting⟩ (.error fault)
  | finished {number : Nat} {now : Readings} {delivery : Http.Delivery} {p : Pending}
      {session : Session} {result : Checked (Except GatewayError Answer)}
      (waits : d.waiting[number]? = some p)
      (half : d.session.attemptFinish now p delivery = (session, result)) :
      Attempted d (.finish number now delivery) ⟨session, d.waiting.eraseIdx number⟩
        (result.map .answered)
  | nothing {number : Nat} {now : Readings} {delivery : Http.Delivery}
      (gone : d.waiting[number]? = none) :
      Attempted d (.finish number now delivery) d (.ok .nothing)
  | placed (now : Timestamp) : Attempted d (.nextSequence now)
      ⟨(d.session.nextSequence now).1, d.waiting⟩ (.ok (.place (d.session.nextSequence now).2))
  | tracked (o : InFlightOrder) : Attempted d (.track o)
      ⟨(d.session.track o).1, d.waiting⟩ (.ok (.tracked (d.session.track o).2))
  | updated (u : OrderUpdate) : Attempted d (.applyUpdate u)
      ⟨(d.session.applyUpdate u).1, d.waiting⟩ (.ok (.updated (d.session.applyUpdate u).2))
  | acknowledged (clientId : String) : Attempted d (.acknowledge clientId)
      ⟨(d.session.acknowledge clientId).1, d.waiting⟩
      (.ok (.acknowledged (d.session.acknowledge clientId).2))
  /-- A tier is looked at, or all are. -/
  | looked {move : Move} {now : Timestamp} {gauges : List Gauge} {reaction : Checked Reaction}
      (looks : (∃ tier, move = .usage tier now) ∨ move = .usages now)
      (rolled : Rolled now d.session.limiter.gauges gauges) : Attempted d move
        ⟨{ d.session with limiter := { d.session.limiter with gauges } }, d.waiting⟩ reaction
  | heard (frame : String) :
      Attempted d (.streamEvent frame) d (.ok (.event (d.session.streamEvent frame)))
  | subscribed (pairs : List String) (id : Nat) :
      Attempted d (.subscribe pairs id) d (.ok (.subscription (d.session.subscription pairs id)))

theorem attempted_start (d : Dialogue) (now : Readings) (expired : Bool) (call : Call) :
    d.Attempted (.start now expired call) (d.attempt (.start now expired call)).1
      (d.attempt (.start now expired call)).2 := by
  cases hstart : d.session.start now expired call with
  | error fault =>
    have half : d.session.attemptStart now expired call =
        (d.session.afterStoppedStart now call, .error fault) := by
      rw [Session.attemptStart, hstart]
      rfl
    simp only [attempt, step, hstart, bind, Except.bind, Checked.orLeave, afterStopped]
    exact .unsent half
  | ok started =>
    obtain ⟨session, result⟩ := started
    have half : d.session.attemptStart now expired call = (session, .ok result) := by
      rw [Session.attemptStart, hstart]
      rfl
    simp only [attempt, step, hstart, bind, Except.bind, Checked.orLeave]
    cases result with
    | error error => exact .refused half
    | ok p => exact .sent half

theorem attempted_finish (d : Dialogue) (number : Nat) (now : Readings)
    (delivery : Http.Delivery) : d.Attempted (.finish number now delivery)
      (d.attempt (.finish number now delivery)).1 (d.attempt (.finish number now delivery)).2 := by
  cases waits : d.waiting[number]? with
  | none =>
    simp only [attempt, step, waits]
    exact .nothing waits
  | some p =>
    simp only [attempt, step, afterStopped, waits]
    cases hfinish : d.session.finish now p delivery with
    | error fault =>
      have half : d.session.attemptFinish now p delivery =
          (d.session.afterStoppedFinish now p delivery, .error fault) := by
        rw [Session.attemptFinish, hfinish]
        rfl
      exact .finished waits half
    | ok outcome =>
      have half : d.session.attemptFinish now p delivery = (outcome.1, .ok outcome.2) := by
        rw [Session.attemptFinish, hfinish]
        rfl
      exact .finished waits half

/-- Whatever comes of a move, it is one of these. -/
theorem attempted_of_attempt {move : Move} {reaction : Checked Reaction}
    (h : d.attempt move = (d', reaction)) : d.Attempted move d' reaction := by
  have hd : d' = (d.attempt move).1 := (congrArg Prod.fst h).symm
  have hreaction : reaction = (d.attempt move).2 := (congrArg Prod.snd h).symm
  subst hd hreaction
  cases move with
  | start now expired call => exact d.attempted_start now expired call
  | finish number now delivery => exact d.attempted_finish number now delivery
  | nextSequence now => exact .placed now
  | track o => exact .tracked o
  | applyUpdate u => exact .updated u
  | acknowledge clientId => exact .acknowledged clientId
  | usage tier now =>
    simp only [attempt, step, afterStopped]
    cases husage : d.session.limiter.usage tier now with
    | error fault => exact .looked (.inl ⟨tier, rfl⟩) (Limiter.rolled_afterStoppedUsage _ tier now)
    | ok outcome =>
      obtain ⟨gauges, hlimiter, hrolled⟩ := Limiter.rolled_usage husage
      obtain ⟨limiter, result⟩ := outcome
      cases hlimiter
      exact .looked (.inl ⟨tier, rfl⟩) hrolled
  | usages now =>
    simp only [attempt, step, afterStopped]
    cases husages : d.session.limiter.usages now with
    | error fault => exact .looked (.inr rfl) (Limiter.rolled_afterStoppedUsages _ now)
    | ok outcome =>
      obtain ⟨gauges, hlimiter, hrolled⟩ := Limiter.rolled_usages husages
      obtain ⟨limiter, us⟩ := outcome
      cases hlimiter
      exact .looked (.inr rfl) hrolled
  | streamEvent frame => exact .heard frame
  | subscribe pairs id => exact .subscribed pairs id

end Dialogue

end SpotGateway
