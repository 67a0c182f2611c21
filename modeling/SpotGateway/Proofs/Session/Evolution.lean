import Mathlib.Logic.Relation
import SpotGateway.Proofs.Order.Ownership
import SpotGateway.Proofs.Session.Dialogue
import SpotGateway.Proofs.Session.Freshness
import SpotGateway.Proofs.Session.Registration

/-!
# How the orders of a session come about

A session does nothing with its orders but what their tracker offers: it takes the next place, tracks
an order, takes an observation in, and lets an order go.  So what these four keep is kept by every
dialogue, whatever the exchange replies.

* `OrderTracker.Change`, `OrderTracker.Evolves` — one thing that is done with a tracker, and any
  number of them;
* `OrderTracker.WellIndexed`, `OrderTracker.WellIndexed.of_evolves` — orders are filed once, and the
  index leads to orders that have the exchange id;
* `Session.evolves_of_start`, `Session.evolves_of_finish` — the two halves of a call;
* `Dialogue.Admitting`, `Dialogue.evolves_of_run` — dialogues in which no order from outside is
  refused;
* `Dialogue.admitting_of_run` — so it is where only submitted orders are followed.
-/

set_option autoImplicit false

namespace SpotGateway

namespace OrderTracker

variable {t t' : OrderTracker}

/-- Something is done with the tracker.  An order that is tracked is not refused. -/
inductive Change (t : OrderTracker) : OrderTracker → Prop where
  | placed (now : Timestamp) : Change t (t.nextSequence now).1
  | tracked (o : InFlightOrder) (admitted : (t.track o).2 = .ok ()) : Change t (t.track o).1
  | observed (u : OrderUpdate) : Change t (t.apply u).1
  | dismissed (clientId : String) : Change t (t.acknowledge clientId).1

/-- The one tracker comes about from the other by what is done with it. -/
def Evolves : OrderTracker → OrderTracker → Prop := Relation.ReflTransGen Change

theorem Evolves.refl (t : OrderTracker) : t.Evolves t := Relation.ReflTransGen.refl

theorem Evolves.trans {t₁ t₂ t₃ : OrderTracker} (h : t₁.Evolves t₂) (h' : t₂.Evolves t₃) :
    t₁.Evolves t₃ :=
  Relation.ReflTransGen.trans h h'

theorem Change.evolves (h : t.Change t') : t.Evolves t' := Relation.ReflTransGen.single h

theorem evolves_observe (t : OrderTracker) (r : OrderReport) : t.Evolves (t.observe r) := by
  unfold observe
  cases t.clientId? r.exchangeId with
  | none => exact Evolves.refl t
  | some clientId => exact (Change.observed (r.toUpdate clientId)).evolves

theorem evolves_observeAll (t : OrderTracker) (reports : List OrderReport) :
    t.Evolves (t.observeAll reports) := by
  induction reports generalizing t with
  | nil => exact Evolves.refl t
  | cons r rest ih => exact (evolves_observe t r).trans (ih (t.observe r))

/-- Orders are filed once, under their client ids, and what the index finds by an exchange id is an
order that has the id. -/
structure WellIndexed (t : OrderTracker) : Prop where
  filed : t.Filed
  leads : t.Leads

theorem WellIndexed.empty : WellIndexed empty := ⟨Filed.empty, Leads.empty⟩

theorem WellIndexed.of_change (h : t.WellIndexed) (hchange : t.Change t') : t'.WellIndexed := by
  cases hchange with
  | placed now => exact ⟨⟨h.filed.apart, h.filed.own⟩, h.leads⟩
  | tracked o admitted => exact ⟨h.filed.track o, h.leads.track admitted⟩
  | observed u => exact ⟨h.filed.apply u, h.leads.apply h.filed u⟩
  | dismissed clientId => exact ⟨h.filed.acknowledge clientId, h.leads.acknowledge clientId⟩

theorem WellIndexed.of_evolves (h : t.WellIndexed) (hevolves : t.Evolves t') : t'.WellIndexed := by
  induction hevolves with
  | refl => exact h
  | tail _ hchange ih => exact ih.of_change hchange

end OrderTracker

namespace Session

variable {s s' : Session} {now : Timestamp}

/-! ## The two halves of a call -/

/-- Starting a call takes a place, after it has tracked the order that is submitted, or does
nothing.  An order that is refused is not indexed either, for it has no exchange id yet. -/
theorem evolves_of_start {now : Readings} {expired : Bool} {call : Call}
    {result : Except GatewayError Pending} (h : s.start now expired call = .ok (s', result)) :
    s.tracker.Evolves s'.tracker := by
  cases started_of_start h with
  | refused error planned unchanged =>
    rw [unchanged]
    exact .refl _
  | throttled errand limiter refusal planned reserved changed =>
    rw [changed]
    exact .refl _
  | late errand limiter reservation planned reserved passed changed =>
    rw [changed]
    exact .refl _
  | untracked errand limiter reservation order tracker error planned reserved intime submitted
      tracked changed =>
    have hunnamed := (unheard_of_plan planned submitted).2
    rcases s.tracker.track_of_unnamed hunnamed with ⟨_, htrack⟩ | ⟨_, htrack⟩
    · rw [tracked] at htrack
      cases htrack
    · rw [tracked] at htrack
      cases htrack
      rw [changed]
      exact .refl _
  | sent errand limiter reservation request tracker planned reserved requested intime tracked
      changed =>
    have hplaced : tracker.Evolves s'.tracker := by
      rw [changed]
      exact (OrderTracker.Change.placed now.sequencer).evolves
    cases hsubmitted : errand.submitted with
    | none =>
      rw [hsubmitted] at tracked
      exact tracked ▸ hplaced
    | some o =>
      simp only [hsubmitted] at tracked
      have htracked : s.tracker.Change tracker := by
        have hchange := OrderTracker.Change.tracked (t := s.tracker) o (congrArg Prod.snd tracked)
        rw [tracked] at hchange
        exact hchange
      exact htracked.evolves.trans hplaced

/-- A failure is observed under a place of its own, if it is observed. -/
theorem evolves_afterFailure {now : Readings} {e : Errand} {error : GatewayError}
    (h : s.afterFailure now e error = .ok s') : s.tracker.Evolves s'.tracker := by
  rcases afterFailure_cases h with ⟨rfl, _⟩ | ⟨_, u, _, _, _, _, _, _, rfl⟩
  · exact .refl _
  · have hplaced : s.tracker.Evolves (s.nextSequence now.sequencer).1.tracker :=
      (OrderTracker.Change.placed now.sequencer).evolves
    exact hplaced.trans (OrderTracker.Change.observed u).evolves

theorem evolves_takeBody {sequence : Nat} {e : Errand} {body : String}
    {r : Except GatewayError Answer} (h : s.takeBody now sequence e body = .ok (s', r)) :
    s.tracker.Evolves s'.tracker := by
  rcases heard_or_placed h with ⟨heard, _, hobserved⟩ | ⟨o, reply, state, time, _, _, htaken⟩
  · rw [hobserved]
    exact s.tracker.evolves_observeAll heard
  · rw [htaken]
    exact (OrderTracker.Change.observed _).evolves

theorem evolves_of_finish {now : Readings} {p : Pending} {delivery : Http.Delivery}
    {r : Except GatewayError Answer} (h : s.finish now p delivery = .ok (s', r)) :
    s.tracker.Evolves s'.tracker := by
  obtain ⟨s₁, settled, hsettle, _, hcases⟩ := finish_cases h
  have htracker : s₁.tracker = s.tracker := by
    rw [← tracker_settle s now.limiter p.reservation delivery, hsettle]
  rw [← htracker]
  rcases hcases with ⟨error, _, _, hafter⟩ | ⟨body, _, hbody⟩
  · exact evolves_afterFailure hafter
  · exact evolves_takeBody hbody

end Session

namespace Dialogue

variable {d d' : Dialogue}

/-! ## Dialogues -/

/-- None of the orders that were to be followed besides those that are submitted was refused. -/
def Admitting (reactions : List Reaction) : Prop :=
  ∀ error, Reaction.tracked (.error error) ∉ reactions

/-- What comes of following an order comes of nothing else. -/
theorem track_of_step {move : Move} {result : Except GatewayError Unit}
    (h : d.step move = .ok (d', .tracked result)) : ∃ o, move = .track o := by
  cases move with
  | track o => exact ⟨o, rfl⟩
  | start now expired call =>
    obtain ⟨⟨session, result'⟩, _, h⟩ := bind_eq_ok.mp h
    cases result' <;> cases h
  | finish number now delivery =>
    simp only [step] at h
    split at h
    · obtain ⟨_, _, h⟩ := bind_eq_ok.mp h
      cases h
    · cases h
  | usage tier now =>
    obtain ⟨_, _, h⟩ := bind_eq_ok.mp h
    cases h
  | usages now =>
    obtain ⟨_, _, h⟩ := bind_eq_ok.mp h
    cases h
  | _ => cases h

/-- No order is refused while none is followed but those that are submitted. -/
theorem admitting_of_run {moves : List Move} {reactions : List Reaction}
    (h : d.run moves = .ok (d', reactions)) (hnone : ∀ o, Move.track o ∉ moves) :
    Admitting reactions := by
  induction moves generalizing d reactions with
  | nil =>
    cases h
    exact fun error hmem => nomatch hmem
  | cons move rest ih =>
    obtain ⟨d₁, reaction, later, hstep, hrest, rfl⟩ := run_cons_eq_ok.mp h
    have hlater := ih hrest fun o hmem => hnone o (List.mem_cons_of_mem _ hmem)
    intro error hmem
    rcases List.mem_cons.mp hmem with rfl | hmem
    · obtain ⟨o, rfl⟩ := track_of_step hstep
      exact hnone o List.mem_cons_self
    · exact hlater error hmem

theorem evolves_of_step {move : Move} {reaction : Reaction}
    (h : d.step move = .ok (d', reaction)) (hadmitting : Admitting [reaction]) :
    d.session.tracker.Evolves d'.session.tracker := by
  cases move with
  | start now expired call =>
    obtain ⟨⟨session, result⟩, hstart, h⟩ := bind_eq_ok.mp h
    cases result with
    | error error =>
      cases h
      exact Session.evolves_of_start hstart
    | ok p =>
      cases h
      exact Session.evolves_of_start hstart
  | finish number now delivery =>
    simp only [step] at h
    split at h
    · obtain ⟨⟨session, result⟩, hfinish, h⟩ := bind_eq_ok.mp h
      cases h
      exact Session.evolves_of_finish hfinish
    · cases h
      exact .refl _
  | nextSequence now =>
    cases h
    exact (OrderTracker.Change.placed now).evolves
  | track o =>
    cases h
    refine (OrderTracker.Change.tracked o ?_).evolves
    cases htrack : (d.session.tracker.track o).2 with
    | ok done => rfl
    | error error =>
      refine absurd (List.mem_singleton.mpr ?_) (hadmitting error)
      exact congrArg Reaction.tracked htrack.symm
  | applyUpdate u =>
    cases h
    exact (OrderTracker.Change.observed u).evolves
  | acknowledge clientId =>
    cases h
    exact (OrderTracker.Change.dismissed clientId).evolves
  | usage tier now =>
    obtain ⟨⟨limiter, result⟩, _, h⟩ := bind_eq_ok.mp h
    cases h
    exact .refl _
  | usages now =>
    obtain ⟨⟨limiter, us⟩, _, h⟩ := bind_eq_ok.mp h
    cases h
    exact .refl _
  | streamEvent frame =>
    cases h
    exact .refl _
  | subscribe pairs id =>
    cases h
    exact .refl _

/-- Whatever is done with a session and whatever it hears, its orders come about by what their
tracker offers. -/
theorem evolves_of_run {moves : List Move} {reactions : List Reaction}
    (h : d.run moves = .ok (d', reactions)) (hadmitting : Admitting reactions) :
    d.session.tracker.Evolves d'.session.tracker := by
  induction moves generalizing d reactions with
  | nil =>
    cases h
    exact .refl _
  | cons move rest ih =>
    obtain ⟨d₁, reaction, later, hstep, hrest, rfl⟩ := run_cons_eq_ok.mp h
    have hfirst : Admitting [reaction] := fun error hmem =>
      hadmitting error (List.mem_cons.mpr (Or.inl (List.mem_singleton.mp hmem)))
    have hlater : Admitting later := fun error hmem => hadmitting error (List.mem_cons_of_mem _ hmem)
    exact (evolves_of_step hstep hfirst).trans (ih hrest hlater)

/-- After every dialogue with a new session orders are filed once, and the index leads to orders that
have the exchange id. -/
theorem wellIndexed_of_run {config : Config} {credentials : Credentials} {s : Session}
    (hs : Session.create config credentials = .ok s) {moves : List Move} {reactions : List Reaction}
    (h : (opening s).run moves = .ok (d, reactions)) (hadmitting : Admitting reactions) :
    d.session.tracker.WellIndexed := by
  obtain ⟨table, _, rfl⟩ := Session.create_eq_ok hs
  exact OrderTracker.WellIndexed.empty.of_evolves (evolves_of_run h hadmitting)

end Dialogue

end SpotGateway
