import Aftermath.Countdown.Trial

/-! How often alarms can still run in a trial: each once when it is set and once when its moment has come,
and then those that it sets. A step adds at most twice its size, and whatever runs takes something away,
so twice the number of steps is enough for every loop. -/

namespace Aftermath.Countdown

def Alarm.load (a : Alarm) : Nat :=
  match a.whenRung with
  | none => 1
  | some steps => 1 + 2 * sizes steps

def readyBurden (now : Nat) : List Alarm → Nat
  | [] => 0
  | a :: l => a.load + (if now < a.due then 1 else 0) + readyBurden now l

def timersBurden : List (Nat × Alarm) → Nat
  | [] => 0
  | x :: l => x.2.load + timersBurden l

def burden (g : Agenda Alarm) : Nat := readyBurden g.now g.ready + timersBurden g.timers

section
variable {g g' : Agenda Alarm} {a : Alarm} {now due : Nat}

theorem Alarm.load_pos (a : Alarm) : 0 < a.load := by
  unfold Alarm.load
  split <;> omega

theorem readyBurden_append (now : Nat) (l r : List Alarm) :
    readyBurden now (l ++ r) = readyBurden now l + readyBurden now r := by
  induction l with
  | nil => exact (Nat.zero_add _).symm
  | cons a l ih =>
    rw [List.cons_append, readyBurden, readyBurden, ih]
    omega

theorem timersBurden_append (l r : List (Nat × Alarm)) :
    timersBurden (l ++ r) = timersBurden l + timersBurden r := by
  induction l with
  | nil => exact (Nat.zero_add _).symm
  | cons a l ih =>
    rw [List.cons_append, timersBurden, timersBurden, ih]
    omega

theorem burden_spawn (g : Agenda Alarm) (a : Alarm) : burden (g.spawn a) ≤ burden g + a.load + 1 := by
  have hready : readyBurden g.now (g.ready ++ [a]) ≤ readyBurden g.now g.ready + a.load + 1 := by
    rw [readyBurden_append, readyBurden, readyBurden]
    split <;> omega
  unfold burden Agenda.spawn
  dsimp only
  omega

theorem timersBurden_insert (due : Nat) (a : Alarm) (l : List (Nat × Alarm)) :
    timersBurden (Agenda.insertTimer due a l) = timersBurden l + a.load := by
  induction l with
  | nil => exact Nat.add_comm _ _
  | cons x l ih =>
    obtain ⟨d, b⟩ := x
    unfold Agenda.insertTimer
    split
    · simp only [timersBurden]
      omega
    · simp only [timersBurden, ih]
      omega

theorem burden_sleep (g : Agenda Alarm) (due : Nat) (a : Alarm) :
    burden (g.sleep due a) = burden g + a.load := by
  unfold burden Agenda.sleep
  dsimp only
  rw [timersBurden_insert]
  omega

theorem next?_eq (hn : g.next? = some (a, g')) : g.ready = a :: g'.ready ∧ g' = { g with ready := g'.ready } := by
  unfold Agenda.next? at hn
  split at hn
  · cases hn
  · next hr =>
    cases hn
    exact ⟨hr, rfl⟩

theorem next?_eq_none (hn : g.next? = none) : g.ready = [] := by
  unfold Agenda.next? at hn
  split at hn
  · assumption
  · cases hn

theorem burden_next (hn : g.next? = some (a, g')) :
    burden g = a.load + (if g'.now < a.due then 1 else 0) + burden g' := by
  obtain ⟨hr, hg⟩ := next?_eq hn
  have hnow : g'.now = g.now := by rw [hg]
  have htimers : g'.timers = g.timers := by rw [hg]
  unfold burden
  rw [hr, hnow, htimers, readyBurden]
  omega

theorem ready_of_burden (hb : burden g = 0) : g.ready = [] := by
  cases hr : g.ready with
  | nil => rfl
  | cons a l =>
    have hpos := a.load_pos
    rw [burden, hr, readyBurden] at hb
    omega

end

namespace Trial

section
variable {t : Trial} {a : Alarm} {g : Agenda Alarm} {n : Nat}

theorem agenda_drop (t : Trial) (name : String) : (t.drop name).agenda = t.agenda := by
  unfold drop
  split <;> rfl

mutual

/-- A step takes no time and adds at most twice its size. -/
theorem burden_step (t : Trial) : (s : Step) → (step t s).2.agenda.now = t.agenda.now ∧
    burden (step t s).2.agenda ≤ burden t.agenda + 2 * s.size
  | .new name => by
    have ha : (step t (.new name)).2.agenda = t.agenda := by
      unfold step
      exact agenda_drop t name
    rw [ha]
    exact ⟨rfl, Nat.le_add_right _ _⟩
  | .arm name ms label whenRung => by
    unfold step
    split
    · exact ⟨rfl, Nat.le_add_right _ _⟩
    · next i c _ =>
      refine ⟨rfl, Nat.le_trans (burden_spawn _ _) ?_⟩
      cases whenRung with
      | none => exact Nat.le_refl _
      | some steps =>
        simp only [Alarm.load, Step.size, put]
        omega
  | .cancel name => by
    unfold step
    split
    · exact ⟨rfl, Nat.le_add_right _ _⟩
    · exact ⟨rfl, Nat.le_add_right _ _⟩
  | .armed name => by
    unfold step
    split
    · exact ⟨rfl, Nat.le_add_right _ _⟩
    · exact ⟨rfl, Nat.le_add_right _ _⟩
  | .drop name => by
    have ha : (step t (.drop name)).2.agenda = t.agenda := by
      unfold step
      exact agenda_drop t name
    rw [ha]
    exact ⟨rfl, Nat.le_add_right _ _⟩
  | .describe name => by
    unfold step
    split
    · exact ⟨rfl, Nat.le_add_right _ _⟩
    · exact ⟨rfl, Nat.le_add_right _ _⟩
  | .advance _ => by
    unfold step
    exact ⟨rfl, Nat.le_add_right _ _⟩
  | .batch steps => by
    have ih := burden_takeSteps t steps
    unfold step
    refine ⟨ih.1, Nat.le_trans ih.2 ?_⟩
    rw [Step.size]
    omega

theorem burden_takeSteps (t : Trial) : (ss : List Step) →
    (takeSteps t ss).2.agenda.now = t.agenda.now ∧
      burden (takeSteps t ss).2.agenda ≤ burden t.agenda + 2 * sizes ss
  | [] => by
    unfold takeSteps
    exact ⟨rfl, Nat.le_add_right _ _⟩
  | s :: ss => by
    have hs := burden_step t s
    have ih := burden_takeSteps (step t s).2 ss
    unfold takeSteps
    refine ⟨ih.1.trans hs.1, Nat.le_trans ih.2 ?_⟩
    rw [sizes]
    omega

end

/-- An alarm that runs takes no time and has run once more. -/
theorem burden_runAlarm (t : Trial) (a : Alarm) :
    (runAlarm t a).agenda.now = t.agenda.now ∧
      burden (runAlarm t a).agenda < a.load + (if t.agenda.now < a.due then 1 else 0) + burden t.agenda := by
  have hpos := a.load_pos
  unfold runAlarm
  split
  · exact ⟨rfl, by omega⟩
  · split
    · exact ⟨rfl, by omega⟩
    · split
      · refine ⟨rfl, ?_⟩
        rw [burden_sleep]
        omega
      · next c _ _ =>
        dsimp only
        cases hw : a.whenRung with
        | none =>
          refine ⟨rfl, ?_⟩
          show burden t.agenda < _
          omega
        | some steps =>
          have hs := burden_takeSteps (t.put a.countdown c) steps
          refine ⟨hs.1, Nat.lt_of_le_of_lt hs.2 ?_⟩
          show burden t.agenda + 2 * sizes steps < _
          rw [Alarm.load, hw]
          dsimp only
          omega

/-- What can run at a moment takes no time; it comes to its end if the fuel is enough. -/
theorem burden_settle (n : Nat) (t : Trial) :
    (settle n t).agenda.now = t.agenda.now ∧ burden (settle n t).agenda ≤ burden t.agenda ∧
      (n ≠ 0 → t.agenda.ready ≠ [] → burden (settle n t).agenda < burden t.agenda) ∧
      (burden t.agenda ≤ n → (settle n t).agenda.ready = []) := by
  induction n generalizing t with
  | zero =>
    exact ⟨rfl, Nat.le_refl _, fun hn => absurd rfl hn,
      fun hb => ready_of_burden (Nat.eq_zero_of_le_zero hb)⟩
  | succ n ih =>
    unfold settle
    split
    · next hn =>
      have hr := next?_eq_none hn
      exact ⟨rfl, Nat.le_refl _, fun _ hne => absurd hr hne, fun _ => hr⟩
    · next a g hn =>
      have hburden := burden_next hn
      obtain ⟨hnow, hlt⟩ := burden_runAlarm { t with agenda := g } a
      obtain ⟨hnow', hle, -, hready⟩ := ih (runAlarm { t with agenda := g } a)
      have hgnow : g.now = t.agenda.now := by rw [(next?_eq hn).2]
      dsimp only at hlt hnow
      exact ⟨(hnow'.trans hnow).trans hgnow, by omega, fun _ _ => by omega,
        fun hb => hready (by omega)⟩

end
end Trial
end Aftermath.Countdown
