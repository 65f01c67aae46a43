import Aftermath.Proofs.Countdown.Course

/-! Countdowns are exact. An alarm rings once, at its moment, unless its countdown was armed again, cancelled
or dropped before; and a countdown says that it is armed just while an alarm is set. -/

namespace Aftermath.Countdown

/-- How long a step waits; those that alarms or batches carry do not. -/
def Step.wait : Step → Nat
  | .advance ms => ms
  | _ => 0

def elapsed : List Step → Nat
  | [] => 0
  | s :: ss => s.wait + elapsed ss

section
open Trial
variable {past ds : List Deed} {t : Trial}

theorem Trial.runStep_of_ne {s : Step} (hs : ∀ ms, s ≠ .advance ms) (fuel : Nat) (t : Trial) :
    s.wait = 0 ∧ runStepDeeds fuel t s = settleDeeds fuel (step t s).2 ++ stepDeeds t s ∧
      (runStep fuel t s).2 = { Trial.settle fuel (step t s).2 with rings := [] } ∧
      (runStep fuel t s).1.rings = (Trial.settle fuel (step t s).2).rings.reverse := by
  cases s with
  | advance ms => exact absurd rfl (hs ms)
  | _ => exact ⟨rfl, rfl, rfl, rfl⟩

/-- What was shown is past. -/
theorem Chronicled.show (hc : Chronicled past ds [] t) : Chronicled (ds ++ past) [] [] { t with rings := [] } :=
  ⟨hc.recorded, hc.scheduled, rfl⟩

/-- A step and all that can run after it. -/
theorem Chronicled.runStep (hc : Chronicled past [] [] t) (hr : t.agenda.ready = []) (fuel : Nat) (s : Step)
    (hfuel : burden t.agenda + 2 * s.size < fuel) :
    Chronicled (runStepDeeds fuel t s ++ past) [] [] (Trial.runStep fuel t s).2 ∧
      (Trial.runStep fuel t s).2.agenda.ready = [] ∧
      (Trial.runStep fuel t s).2.agenda.now = t.agenda.now + s.wait ∧
      burden (Trial.runStep fuel t s).2.agenda ≤ burden t.agenda + 2 * s.size ∧
      (Trial.runStep fuel t s).1.rings.map Ring.chime = (chimes (runStepDeeds fuel t s)).reverse := by
  -- The move itself, before what can run then has run.
  have hmove : ∃ u ds, Chronicled past ds [] u ∧ u.agenda.now = t.agenda.now + s.wait ∧
      burden u.agenda ≤ burden t.agenda + 2 * s.size ∧
      runStepDeeds fuel t s = settleDeeds fuel u ++ ds ∧
      (Trial.runStep fuel t s).2 = { Trial.settle fuel u with rings := [] } ∧
      (Trial.runStep fuel t s).1.rings = (Trial.settle fuel u).rings.reverse := by
    by_cases hs : ∀ ms, s ≠ .advance ms
    · have hu := hc.step s
      obtain ⟨hnow, hb⟩ := burden_step t s
      obtain ⟨hwait, hrun⟩ := runStep_of_ne hs fuel t
      rw [List.append_nil] at hu
      exact ⟨_, _, hu, by rw [hnow, hwait, Nat.add_zero], hb, hrun⟩
    · obtain ⟨ms, rfl⟩ : ∃ ms, s = .advance ms := by simpa using hs
      obtain ⟨hu, -, hnow, hb⟩ := hc.advance hr fuel (t.agenda.now + ms) fuel (by omega) (by omega)
      rw [List.append_nil] at hu
      exact ⟨_, _, hu, hnow, Nat.le_add_right_of_le hb, rfl, rfl, rfl⟩
  obtain ⟨u, ds, hu, hnow, hb, hdeeds, hend, hrings⟩ := hmove
  obtain ⟨hnow', hle, -, hready⟩ := burden_settle fuel u
  have hsettled := hu.settle fuel
  rw [hdeeds, hend, hrings]
  refine ⟨hsettled.show, hready (by omega), hnow'.trans hnow, Nat.le_trans hle hb, ?_⟩
  rw [List.map_reverse]
  exact congrArg List.reverse hsettled.rings

/-- A whole trial. -/
theorem Chronicled.run (hc : Chronicled past [] [] t) (hr : t.agenda.ready = []) (fuel : Nat) (steps : List Step)
    (hfuel : burden t.agenda + 2 * sizes steps < fuel) :
    (∃ u, Chronicled (runDeeds fuel t steps ++ past) [] [] u ∧ u.agenda.ready = [] ∧
      u.agenda.now = t.agenda.now + elapsed steps) ∧
    (runSteps fuel t steps).flatMap (fun x => x.rings.map Ring.chime) =
      (chimes (runDeeds fuel t steps)).reverse := by
  induction steps generalizing t past with
  | nil => exact ⟨⟨t, hc, hr, rfl⟩, rfl⟩
  | cons s ss ih =>
    rw [sizes] at hfuel
    obtain ⟨hs, hready, hnow, hb, hrings⟩ := hc.runStep hr fuel s (by omega)
    obtain ⟨⟨u, hu, hur, hunow⟩, hrest⟩ := ih hs hready (by omega)
    refine ⟨⟨u, ?_, hur, ?_⟩, ?_⟩
    · rw [runDeeds, List.append_assoc]
      exact hu
    · rw [hunow, hnow, elapsed, Nat.add_assoc]
    · rw [runSteps, List.flatMap_cons, hrings, hrest, runDeeds, chimes, chimes, chimes,
        List.filterMap_append, List.reverse_append]

end

/-- At its start nothing has happened in a trial. -/
theorem chronicled_start : Chronicled [] [] [] {} where
  recorded := ⟨trivial, by rintro d ⟨⟩, by rintro i c ⟨⟩, by rintro i c ⟨⟩, by rintro i a ⟨⟩⟩
  scheduled := by
    refine ⟨by rintro i a ⟨⟩, fun a ha => ?_, by rintro a ⟨⟩, by rintro x ⟨⟩, .nil⟩
    rcases ha with ha | ⟨due, ha⟩ <;> cases ha
  rings := rfl

/-- What happens in a trial is lawful, and an alarm that is still set at its end is set for later. -/
theorem history_spec (steps : List Step) :
    Lawful (history steps) ∧
      (∀ i a, latest? i (history steps) = some (.armed a) → elapsed steps < a.due) ∧
      (Trial.run steps).flatMap (fun x => x.rings.map Ring.chime) = (chimes (history steps)).reverse := by
  obtain ⟨⟨u, hu, hr, hnow⟩, hrings⟩ :=
    chronicled_start.run rfl (2 * sizes steps + 2) steps (show 0 + 2 * sizes steps < _ by omega)
  rw [List.append_nil] at hu
  refine ⟨hu.recorded.lawful, fun i a hl => ?_, hrings⟩
  rcases hu.scheduled.pending i a hl with ha | ha
  · rw [hr] at ha
    cases ha
  · have hlt := (hu.scheduled.timers _ ha).2
    rw [hnow] at hlt
    exact Nat.lt_of_le_of_lt (Nat.le_add_left _ _) hlt

/-- Each alarm that is set is set once and rings at most once. When it rings, it is at its moment and it was
the last thing to happen to its countdown. If its moment has come by the end, something has happened to the
countdown by then, and the alarm rang unless that was to arm the countdown anew, to cancel it or to drop it.
Who asks or cancels learns whether an alarm is set, and nothing else is seen than that the alarms rang, each
while its countdown was not armed. -/
theorem alarms_exact (steps : List Step) :
    (∀ i g, (history steps).countP (·.isArming i g) ≤ 1 ∧
      (history steps).countP (·.isRing i g) ≤ (history steps).countP (·.isArming i g)) ∧
    (∀ newer d older, history steps = newer ++ d :: older →
      (∀ a, d.act = .rang a → d.time = a.due ∧ latest? d.countdown older = some (.armed a)) ∧
      (∀ a, d.act = .armed a → a.due ≤ elapsed steps →
        ∃ e, first? d.countdown newer = some e ∧ e.time ≤ a.due ∧
          ((∃ r ∈ newer, r.countdown = d.countdown ∧ r.act = .rang a) ↔ e.act.overrides = false)) ∧
      ∀ b, d.act = .asked b ∨ d.act = .cancelled b →
        (b = true ↔ ∃ a, latest? d.countdown older = some (.armed a))) ∧
    (Trial.run steps).flatMap (fun x => x.rings.map Ring.chime) = (chimes (history steps)).reverse := by
  obtain ⟨hlaw, hset, hrings⟩ := history_spec steps
  refine ⟨fun i g => ⟨hlaw.countP_arming i g, ?_⟩, fun newer d older hsplit => ?_, hrings⟩
  · exact Nat.le_of_add_right_le (hlaw.countP_ring i g)
  · rw [hsplit] at hlaw hset
    have hd := hlaw.of_append.1
    refine ⟨fun a ha => (hd.ringing a ha).symm, fun a ha hdue => ?_, hd.answer⟩
    cases hf : first? d.countdown newer with
    | none =>
      -- Nothing has happened to it, so the alarm would still be set.
      have hl : latest? d.countdown (newer ++ d :: older) = some (.armed a) := by
        rw [latest?_append_of_none hf, latest?_cons_self (concerns_iff.2 ⟨rfl, by rw [ha]; rfl⟩), ha]
      exact absurd (hset _ a hl) (Nat.not_lt.2 hdue)
    | some e =>
      obtain ⟨htime, -, hiff⟩ := hlaw.follows rfl ha hf
      exact ⟨e, rfl, htime, hiff⟩

/-- An alarm that is replaced never rings, though its moment comes. -/
theorem replaced_never_rings :
    ∃ newer older a,
      history [.new "a", .arm "a" 5 "x" none, .arm "a" 3 "y" none, .advance 10] =
        newer ++ ⟨0, 0, .armed a⟩ :: older ∧
      a.due = 5 ∧ ¬ ∃ r ∈ newer, r.countdown = 0 ∧ r.act = .rang a := by
  let x : Alarm := ⟨"a", 0, 1, 5, "x", none⟩
  let y : Alarm := ⟨"a", 0, 2, 3, "y", none⟩
  have hsplit : history [.new "a", .arm "a" 5 "x" none, .arm "a" 3 "y" none, .advance 10] =
      [⟨3, 0, .rang y⟩, ⟨0, 0, .armed y⟩] ++ ⟨0, 0, .armed x⟩ :: [] := rfl
  refine ⟨_, _, x, hsplit, rfl, ?_⟩
  have hfate := ((alarms_exact _).2.1 _ _ _ hsplit).2.1 x rfl
  obtain ⟨e, he, -, hiff⟩ := hfate (by decide)
  obtain rfl := Option.some.inj he
  rw [hiff]
  decide

end Aftermath.Countdown
