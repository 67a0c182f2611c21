import Mathlib.Algebra.Order.Field.Rat
import Mathlib.Tactic.Linarith
import SpotGateway.Proofs.Session.Submission

/-!
# How far the exchange's clock is known

A reply tells what the exchange's clock showed when it was written, which is at some time between
sending and receiving.  The shift is taken as if that had been half way, and then cut off to whole
milliseconds, so that it is off by half the time on the way and by what was cut off.

* `ServerClock.Stamped` — a reply that carries the exchange's time;
* `ServerClock.abs_midpoint_sub_le`, `ServerClock.abs_cut_sub_lt` — what half way and cutting off cost;
* `ServerClock.accurate_of_observed` — the time that is shown after a reply, and the true one;
* `Session.accurate_of_sync` — the same for the time that a session goes by after it has asked.
-/

set_option autoImplicit false

namespace SpotGateway

namespace ServerClock

variable {sent received server now shown : Timestamp} {ahead : Int}

/-- The exchange's clock is `ahead` nanoseconds ahead of the local one and showed `server` at some
local time between sending and receiving. -/
def Stamped (sent received server : Timestamp) (ahead : Int) : Prop :=
  ∃ written : Timestamp, sent ≤ written ∧ written ≤ received ∧ server.nanos = written.nanos + ahead

/-- Half the nanoseconds between sending and receiving, and a millisecond. -/
def tolerance (sent received : Timestamp) : ℚ := (received.since sent : ℚ) / 2 + 1000000

/-- By how many nanoseconds a time that is shown is off the exchange's true time. -/
def deviation (shown now : Timestamp) (ahead : Int) : Int := shown.nanos - (now.nanos + ahead)

/-- Between sending and receiving no time is farther from the midpoint than half the way.  The half is
rounded down, which leaves up to one nanosecond more on the side of receiving. -/
theorem abs_midpoint_sub_le {written : Timestamp} (hsent : sent ≤ written)
    (hreceived : written ≤ received) :
    2 * |written.nanos - midpoint sent received| ≤ received.since sent + 1 := by
  have hfrom : sent.nanos ≤ written.nanos := hsent
  have hto : written.nanos ≤ received.nanos := hreceived
  unfold midpoint Timestamp.since
  rcases abs_cases (written.nanos - (sent.nanos + (received.nanos - sent.nanos) / 2)) with h | h <;>
    omega

/-- Cutting a shift off to milliseconds, in the direction of zero, changes it by less than one. -/
theorem abs_cut_sub_lt (nanos : Int) : |(ofNanos nanos).offsetMillis * 1000000 - nanos| < 1000000 := by
  have hsplit := Int.tmod_add_tdiv_mul nanos 1000000
  have hrest : |nanos.tmod 1000000| < 1000000 := by
    rw [Int.abs_eq_natAbs, Int.natAbs_tmod]
    have := Nat.mod_lt nanos.natAbs (show 0 < (1000000 : Int).natAbs by decide)
    omega
  have hcut : (ofNanos nanos).offsetMillis * 1000000 - nanos = -nanos.tmod 1000000 := by
    show nanos.tdiv 1000000 * 1000000 - nanos = -nanos.tmod 1000000
    omega
  rwa [hcut, abs_neg]

/-- The shift that a reply shows is off by half the way, by what the midpoint was rounded by, and by
what was cut off. -/
theorem abs_shift_sub_lt (h : Stamped sent received server ahead) :
    2 * |(observed server sent received).offsetMillis * 1000000 - ahead| <
      received.since sent + 2 * 1000000 := by
  obtain ⟨written, hsent, hreceived, hserver⟩ := h
  have hmid := abs_midpoint_sub_le hsent hreceived
  have hcut := abs_cut_sub_lt (server.nanos - midpoint sent received)
  have hsum : (observed server sent received).offsetMillis * 1000000 - ahead =
      ((observed server sent received).offsetMillis * 1000000 -
        (server.nanos - midpoint sent received)) +
      (written.nanos - midpoint sent received) := by
    omega
  have htriangle := abs_add_le ((observed server sent received).offsetMillis * 1000000 -
    (server.nanos - midpoint sent received)) (written.nanos - midpoint sent received)
  rw [← hsum] at htriangle
  have hshift : (observed server sent received).offsetMillis * 1000000 =
      (ofNanos (server.nanos - midpoint sent received)).offsetMillis * 1000000 := rfl
  rw [← hshift] at hcut
  omega

theorem read_eq_ok_iff {c : ServerClock} : c.read now = .ok shown ↔
    Timestamp.inRange (now.nanos + c.offsetMillis * 1000000) = true ∧
      shown = ⟨now.nanos + c.offsetMillis * 1000000, false⟩ :=
  Timestamp.plus_eq_ok_iff

/-- In rational numbers, where half the way need not be rounded. -/
theorem abs_shift_lt_tolerance (h : Stamped sent received server ahead) :
    |(((observed server sent received).offsetMillis * 1000000 - ahead : Int) : ℚ)| <
      tolerance sent received := by
  have hlt : ((2 * |(observed server sent received).offsetMillis * 1000000 - ahead| : Int) : ℚ) <
      ((received.since sent + 2 * 1000000 : Int) : ℚ) := by
    exact_mod_cast abs_shift_sub_lt h
  rw [← Int.cast_abs]
  unfold tolerance
  push_cast at hlt ⊢
  linarith

/-- A time that is shown after a reply is off by less than the tolerance. -/
theorem abs_deviation_lt (h : Stamped sent received server ahead)
    (hshown : (observed server sent received).read now = .ok shown) :
    |(deviation shown now ahead : ℚ)| < tolerance sent received := by
  obtain ⟨-, rfl⟩ := read_eq_ok_iff.mp hshown
  have hsame : deviation ⟨now.nanos + (observed server sent received).offsetMillis * 1000000, false⟩ now
      ahead = (observed server sent received).offsetMillis * 1000000 - ahead := by
    show now.nanos + (observed server sent received).offsetMillis * 1000000 - (now.nanos + ahead) = _
    omega
  rw [hsame]
  exact abs_shift_lt_tolerance h

/-- A time is shown unless the exchange's true time comes too close to the end of the calendar. -/
theorem exists_shown (h : Stamped sent received server ahead)
    (hcalendar : ∀ nanos : Int, |((nanos - (now.nanos + ahead) : Int) : ℚ)| < tolerance sent received →
      Timestamp.inRange nanos = true) :
    ∃ shown, (observed server sent received).read now = .ok shown := by
  refine ⟨_, read_eq_ok_iff.mpr ⟨hcalendar _ ?_, rfl⟩⟩
  have hsame : now.nanos + (observed server sent received).offsetMillis * 1000000 -
      (now.nanos + ahead) = (observed server sent received).offsetMillis * 1000000 - ahead := by
    omega
  rw [hsame]
  exact abs_shift_lt_tolerance h

/-- **After a reply the exchange's time is known to half the way and a millisecond.**  Let the
exchange's clock be ahead by any amount, or behind, and let the reply have been written at any local
time from sending to receiving.  Whatever local time is read from then on, the time that is shown for
it is off the true one by strictly less than that, and a time is shown as long as all times that close
to the true one are in the calendar. -/
theorem accurate_of_observed (h : Stamped sent received server ahead) (now : Timestamp) :
    (∀ shown, (observed server sent received).read now = .ok shown →
      |(deviation shown now ahead : ℚ)| < (received.since sent : ℚ) / 2 + 1000000) ∧
    ((∀ nanos : Int, |((nanos - (now.nanos + ahead) : Int) : ℚ)| <
        (received.since sent : ℚ) / 2 + 1000000 → Timestamp.inRange nanos = true) →
      ∃ shown, (observed server sent received).read now = .ok shown) :=
  ⟨fun _ hshown => abs_deviation_lt h hshown, exists_shown h⟩

/-- Some days around the epoch all times are in the calendar. -/
theorem inRange_of_near {nanos middle : Int} {reach : ℚ} (hmiddle : |middle| ≤ 10 ^ 15)
    (hreach : reach ≤ 10 ^ 15) (h : |((nanos - middle : Int) : ℚ)| < reach) :
    Timestamp.inRange nanos = true := by
  have hnear : |nanos - middle| < 10 ^ 15 := by
    have := h.trans_le hreach
    rw [← Int.cast_abs] at this
    exact_mod_cast this
  obtain ⟨hlow, hhigh⟩ := abs_lt.mp hnear
  obtain ⟨hmiddleLow, hmiddleHigh⟩ := abs_le.mp hmiddle
  have hfirst : Timestamp.first ≤ -2 * 10 ^ 15 := by decide
  have hlast : 2 * 10 ^ 15 ≤ Timestamp.last := by decide
  rw [Timestamp.inRange, Bool.and_eq_true, decide_eq_true_eq, decide_eq_true_eq]
  omega

/-- Three nanoseconds on the way, a reply written at their end, and a clock that is behind by one
nanosecond more than a millisecond.  The shift is cut off to zero, and the time that is shown is as far
off as it can be. -/
theorem accurate_at_worst :
    Stamped ⟨0, false⟩ ⟨3, false⟩ ⟨-999998, false⟩ (-1000001) ∧
    (observed ⟨-999998, false⟩ ⟨0, false⟩ ⟨3, false⟩).read ⟨60, false⟩ = .ok ⟨60, false⟩ ∧
    deviation ⟨60, false⟩ ⟨60, false⟩ (-1000001) = 1000001 ∧
    |((1000001 : Int) : ℚ)| < (3 : ℚ) / 2 + 1000000 := by
  have hstamped : Stamped ⟨0, false⟩ ⟨3, false⟩ ⟨-999998, false⟩ (-1000001) :=
    ⟨⟨3, false⟩, by decide, by decide, by decide⟩
  obtain ⟨haccurate, hcalendar⟩ := accurate_of_observed hstamped ⟨60, false⟩
  have hmiddle : |(60 + -1000001 : Int)| ≤ 10 ^ 15 := by norm_num
  have hreach : (3 : ℚ) / 2 + 1000000 ≤ 10 ^ 15 := by norm_num
  have hall : ∀ nanos : Int, |((nanos - (60 + -1000001) : Int) : ℚ)| < (3 : ℚ) / 2 + 1000000 →
      Timestamp.inRange nanos = true := fun _ => inRange_of_near hmiddle hreach
  obtain ⟨shown, hshown⟩ := hcalendar hall
  obtain rfl : ⟨60, false⟩ = shown := Except.ok.inj hshown
  have hlt := haccurate _ hshown
  exact ⟨hstamped, hshown, rfl, hlt⟩

end ServerClock

namespace Session

variable {s s' : Session} {received : Readings} {sentAt : Timestamp} {p : Pending}
  {delivery : Http.Delivery} {answer : Answer}

/-- A call that asks for the exchange's time is answered with the clock that its reply shows, and from
then on the session goes by that clock. -/
theorem finish_of_syncTime (hp : p.errand = .syncTime sentAt)
    (h : s.finish received p delivery = .ok (s', .ok answer)) :
    ∃ response server, delivery = .reply response ∧
      serverTimeOf p.errand response.body = .ok server ∧
      s'.clock = .observed server sentAt received.record ∧ answer = .clock s'.clock := by
  obtain ⟨s₁, settled, hsettle, -, ⟨error, -, hanswer, -⟩ | ⟨body, rfl, hbody⟩⟩ := finish_cases h
  · cases hanswer
  · obtain ⟨response, rfl, -, hresponse⟩ := reply_of_settle (congrArg Prod.snd hsettle)
    rw [hp] at hbody ⊢
    rcases taking_cases hbody with ⟨_, _, _, hanswer⟩ | ⟨server, hserver, htaken⟩
    · cases hanswer
    · cases htaken
      exact ⟨response, server, rfl, hresponse ▸ hserver, rfl, rfl⟩

/-- **A session that has asked for the exchange's time goes by it to half the way and a millisecond,**
for as long as it does not ask again. -/
theorem accurate_of_sync (hp : p.errand = .syncTime sentAt)
    (h : s.finish received p delivery = .ok (s', .ok answer)) :
    ∃ response server, delivery = .reply response ∧
      serverTimeOf p.errand response.body = .ok server ∧
      ∀ ahead, ServerClock.Stamped sentAt received.record server ahead →
        ∀ later : Session, later.clock = s'.clock → ∀ now shown, later.serverNow now = .ok shown →
          |(ServerClock.deviation shown now ahead : ℚ)| <
            ServerClock.tolerance sentAt received.record := by
  obtain ⟨response, server, hdelivery, hserver, hclock, -⟩ := finish_of_syncTime hp h
  refine ⟨response, server, hdelivery, hserver, ?_⟩
  intro ahead hstamped later hlater now shown hshown
  rw [serverNow, hlater, hclock] at hshown
  exact ServerClock.abs_deviation_lt hstamped hshown

end Session

end SpotGateway
