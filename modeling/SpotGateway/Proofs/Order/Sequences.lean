import SpotGateway.Order.Sequencer

/-!
# Sequences under any clock

Places rise with every call, whatever the clock shows.  They run ahead of the latest reading by one
for a call at most, so that words of 64 bits hold them for longer than anyone can call.

* `Sequencer.after`, `Sequencer.places` — one call after another;
* `Sequencer.latest` — the latest reading, which places never fall behind by more than the calls;
* `Sequencer.pairwise_places` — each place is after the ones before it;
* `Sequencer.last_after_le` — how far ahead of the clock the last place can be;
* `Sequencer.places_of_calls` — all that can be said of each place.
-/

set_option autoImplicit false

namespace SpotGateway.Sequencer

variable {s : Sequencer} {nows past later : List Timestamp} {now : Timestamp} {p : Nat}

/-! ## One call after another -/

/-- The sequencer after calls at times. -/
def after (s : Sequencer) (nows : List Timestamp) : Sequencer :=
  nows.foldl (fun s now => (s.next now).1) s

/-- The places that calls at times are given. -/
def places : Sequencer → List Timestamp → List Nat
  | _, [] => []
  | s, now :: rest => (s.next now).2 :: places (s.next now).1 rest

@[simp] theorem after_nil (s : Sequencer) : s.after [] = s := rfl

@[simp] theorem after_cons (s : Sequencer) (now : Timestamp) (rest : List Timestamp) :
    s.after (now :: rest) = (s.next now).1.after rest := rfl

theorem after_append (s : Sequencer) (past later : List Timestamp) :
    s.after (past ++ later) = (s.after past).after later :=
  List.foldl_append

/-- The place that a call is given comes from where the calls before it have left the sequencer. -/
theorem getElem?_places (s : Sequencer) (nows : List Timestamp) (i : Nat) : (s.places nows)[i]? =
    nows[i]?.map fun now => ((s.after (nows.take i)).next now).2 := by
  induction nows generalizing s i with
  | nil => rfl
  | cons now rest ih =>
    cases i with
    | zero => rfl
    | succ i =>
      rw [places, List.getElem?_cons_succ, ih]
      rfl

/-- The place of a call is on record once it was made. -/
theorem last_after_take (s : Sequencer) {i : Nat} (hi : nows[i]? = some now) :
    (s.after (nows.take (i + 1))).last = ((s.after (nows.take i)).next now).2 := by
  obtain ⟨hlt, rfl⟩ := List.getElem?_eq_some_iff.mp hi
  rw [List.take_succ_eq_append_getElem hlt, after_append]
  rfl

theorem last_le_after (s : Sequencer) (nows : List Timestamp) : s.last ≤ (s.after nows).last := by
  induction nows generalizing s with
  | nil => exact Nat.le_refl _
  | cons now rest ih =>
    calc s.last ≤ (s.next now).1.last := Nat.le_of_lt (last_lt_next s now)
      _ ≤ (s.after (now :: rest)).last := ih _

/-- Places are after the last one before them, and up to the last of all. -/
theorem bounds_of_mem_places (h : p ∈ s.places nows) : s.last < p ∧ p ≤ (s.after nows).last := by
  induction nows generalizing s with
  | nil => cases h
  | cons now rest ih =>
    have hfirst : s.last < (s.next now).1.last := last_lt_next s now
    rcases List.mem_cons.mp h with rfl | h
    · exact ⟨hfirst, last_le_after (s.next now).1 rest⟩
    · obtain ⟨hlower, hupper⟩ := ih h
      exact ⟨Nat.lt_trans hfirst hlower, hupper⟩

/-- **Each place is after the ones before it.** -/
theorem pairwise_places (s : Sequencer) (nows : List Timestamp) :
    (s.places nows).Pairwise (· < ·) := by
  induction nows generalizing s with
  | nil => exact .nil
  | cons now rest ih =>
    refine List.pairwise_cons.mpr ⟨fun p hp => ?_, ih _⟩
    exact last_next s now ▸ (bounds_of_mem_places hp).1

/-! ## Ahead of the clock -/

/-- The latest reading in nanoseconds, of those that are after the epoch and fit a word. -/
def latest (nows : List Timestamp) : Int := (nows.filterMap Timestamp.wordNanos?).foldr max 0

theorem latest_nonneg (nows : List Timestamp) : 0 ≤ latest nows := by
  unfold latest
  induction nows.filterMap Timestamp.wordNanos? with
  | nil => exact Int.le_refl 0
  | cons nanos rest ih => exact Int.le_trans ih (Int.le_max_right nanos _)

theorem latest_cons (now : Timestamp) (rest : List Timestamp) :
    latest (now :: rest) = max (reading now : Int) (latest rest) := by
  have hlatest : 0 ≤ latest rest := latest_nonneg rest
  unfold reading
  cases hnanos : now.wordNanos? with
  | none =>
    simp only [latest, List.filterMap_cons, hnanos]
    unfold latest at hlatest
    omega
  | some nanos =>
    simp only [latest, List.filterMap_cons, hnanos, List.foldr_cons]
    unfold latest at hlatest
    omega

/-- Readings fit a signed word. -/
theorem reading_lt (now : Timestamp) : reading now < word63 := by
  unfold reading Timestamp.wordNanos?
  split
  · rename_i nanos hnanos
    split at hnanos
    · cases hnanos
      omega
    · cases hnanos
  · exact twoPow_pos 63

theorem latest_lt (nows : List Timestamp) : latest nows < word63 := by
  induction nows with
  | nil => exact Int.ofNat_lt.mpr (twoPow_pos 63)
  | cons now rest ih =>
    have hreading := reading_lt now
    rw [latest_cons]
    omega

/-- The last place is ahead of the latest reading by one for each call, or of where it was. -/
theorem last_after_le (s : Sequencer) (nows : List Timestamp) :
    ((s.after nows).last : Int) ≤ max (s.last : Int) (latest nows) + nows.length := by
  induction nows generalizing s with
  | nil =>
    rw [after_nil, List.length_nil]
    omega
  | cons now rest ih =>
    have hrest := ih (s.next now).1
    have hfirst : (s.next now).1.last = max (reading now) (s.last + 1) := rfl
    rw [after_cons, latest_cons, List.length_cons]
    omega

/-! ## Each place -/

/-- **Places under any clock.**  For fewer than 2^63 calls of a new sequencer at any times, and for
each of the calls: its place is at least one and after all places before it; it is not before the
reading in nanoseconds, if there is one after the epoch; it is on record as the last one; it is
ahead of the latest reading so far by no more than the number of calls so far; and a word of 64 bits
holds it, as it held the place after the last one from which it was made. -/
theorem places_of_calls (hcalls : nows.length < word63) (i : Nat) (hi : nows[i]? = some now) :
    ∃ place, (initial.places nows)[i]? = some place ∧ 1 ≤ place ∧
      (∀ j < i, ∀ earlier, (initial.places nows)[j]? = some earlier → earlier < place) ∧
      (∀ nanos, now.wordNanos? = some nanos → 0 < nanos → nanos ≤ place) ∧
      (initial.after (nows.take (i + 1))).last = place ∧
      (place : Int) ≤ latest (nows.take (i + 1)) + (i + 1 : Nat) ∧
      (initial.after (nows.take i)).last + 1 < word64 ∧ place < word64 := by
  have hlt : i < nows.length := (List.getElem?_eq_some_iff.mp hi).1
  have hplace : (initial.places nows)[i]? = some ((initial.after (nows.take i)).next now).2 := by
    rw [getElem?_places, hi, Option.map_some]
  have hlast := last_after_take initial hi
  have hbefore := last_after_le initial (nows.take i)
  have hahead := last_after_le initial (nows.take (i + 1))
  rw [List.length_take_of_le (Nat.le_of_lt hlt)] at hbefore
  rw [hlast, List.length_take_of_le hlt] at hahead
  have hstart : initial.last = 0 := rfl
  have hpast := latest_nonneg (nows.take i)
  have hsofar := latest_nonneg (nows.take (i + 1))
  have hpastfits := latest_lt (nows.take i)
  have hfits := latest_lt (nows.take (i + 1))
  have hwords : word64 = word63 * 2 := twoPow_succ 63
  refine ⟨_, hplace, Nat.one_le_of_lt (last_lt_next _ _), ?_, ?_, hlast, by omega, by omega,
    by omega⟩
  · intro j hj earlier hearlier
    obtain ⟨hjlt, rfl⟩ := List.getElem?_eq_some_iff.mp hearlier
    obtain ⟨hilt, hthis⟩ := List.getElem?_eq_some_iff.mp hplace
    rw [← hthis]
    exact List.pairwise_iff_getElem.mp (pairwise_places initial nows) j i hjlt hilt hj
  · intro nanos hnanos hpos
    have hreading : reading now = nanos.toNat := by rw [reading, hnanos]
    have hle := reading_le_next (initial.after (nows.take i)) now
    omega

/-- A clock that stands still, steps back, is before the epoch, shows what no word holds, and goes
on. -/
def unsteadyClock : List Timestamp :=
  [⟨5000, false⟩, ⟨5000, false⟩, ⟨4000, false⟩, ⟨-70, false⟩, ⟨9300000000000000000, false⟩,
    ⟨6000, false⟩]

theorem places_unsteadyClock : unsteadyClock.length < word63 ∧
    initial.places unsteadyClock = [5000, 5001, 5002, 5003, 5004, 6000] ∧
    (∀ j < 4, ∀ earlier, (initial.places unsteadyClock)[j]? = some earlier → earlier < 5004) ∧
    (initial.after (unsteadyClock.take 5)).last = 5004 := by
  have hcalls : unsteadyClock.length < word63 := by decide
  obtain ⟨place, hplace, -, hrise, -, hlast, -⟩ := places_of_calls hcalls 4 rfl
  cases hplace
  exact ⟨hcalls, rfl, hrise, hlast⟩

end SpotGateway.Sequencer
