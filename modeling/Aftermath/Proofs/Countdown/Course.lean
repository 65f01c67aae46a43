import Aftermath.Proofs.Countdown.Chronicle

/-! The course of a trial. Every move keeps its state in step with what has happened, and the loops of a
trial come to their ends, so whatever is set by then is set for later. -/

namespace Aftermath.Countdown

abbrev Chime : Type := Nat × String × Option Bool

def Ring.chime (r : Ring) : Chime := (r.time, r.label, r.armed)

/-- While an alarm rings, its countdown is not armed. -/
def Deed.chime? (d : Deed) : Option Chime :=
  match d.act with
  | .rang a => some (d.time, a.label, some false)
  | _ => none

/-- What is to be seen of the alarms that rang, the newest first. -/
def chimes (ds : List Deed) : List Chime := ds.filterMap Deed.chime?

/-- A trial in step with what has happened: `past` before rings were last shown, `ds` since then. The
alarms of `rs` ring at the moment and are not put down yet. -/
structure Chronicled (past ds : List Deed) (rs : List Chime) (t : Trial) : Prop where
  recorded : Recorded (ds ++ past) t.countdowns t.names
  scheduled : Scheduled (ds ++ past) t.agenda
  rings : rs ++ t.rings.map Ring.chime = chimes ds

section
open Trial
variable {past ds : List Deed} {rs : List Chime} {t : Trial} {a : Alarm} {g : Agenda Alarm} {c : Countdown}
variable {i : Nat} {name : String}

theorem Trial.find?_eq_some :
    t.find? name = some (i, c) ↔ t.names.lookup name = some i ∧ t.countdowns[i]? = some c := by
  unfold find?
  simp only [Option.bind_eq_bind, Option.bind_eq_some_iff, Option.pure_def, Option.some.injEq,
    Prod.mk.injEq]
  constructor
  · rintro ⟨j, hj, x, hx, rfl, rfl⟩
    exact ⟨hj, hx⟩
  · rintro ⟨hj, hx⟩
    exact ⟨i, hj, c, hx, rfl, rfl⟩

/-! ### Steps -/

theorem Chronicled.ask (hc : Chronicled past ds rs t) (hx : t.countdowns[i]? = some c) :
    Chronicled past (⟨t.agenda.now, i, .asked c.isArmed⟩ :: ds) rs t := by
  refine ⟨hc.recorded.ask rfl (List.getElem?_eq_some_iff.1 hx).1 ⟨?_, ?_, ?_, ?_⟩,
    hc.scheduled.cons rfl, hc.rings⟩
  · intro a ha
    exact hc.scheduled.onTime ha
  · rintro a ⟨⟩
  · rintro a ⟨⟩
  · rintro b (hb | hb)
    · cases hb
      exact (hc.recorded.state i c hx).isArmed_iff
    · cases hb

theorem Chronicled.cancel (hc : Chronicled past ds rs t) (hx : t.countdowns[i]? = some c) :
    Chronicled past (⟨t.agenda.now, i, .cancelled c.isArmed⟩ :: ds) rs (t.put i c.cancel) := by
  refine ⟨hc.recorded.quell hx rfl (Nat.le_succ _) rfl rfl rfl ⟨?_, ?_, ?_, ?_⟩ ?_,
    hc.scheduled.cons rfl, hc.rings⟩
  · intro a ha
    exact hc.scheduled.onTime ha
  · rintro a ⟨⟩
  · rintro a ⟨⟩
  · rintro b (hb | hb)
    · cases hb
    · cases hb
      exact (hc.recorded.state i c hx).isArmed_iff
  · intro j b _ hj
    exact (hc.recorded.named j b hj).2

theorem lookup_filter_self (name : String) (l : List (String × Nat)) :
    (l.filter fun n => n.1 != name).lookup name = none := by
  induction l with
  | nil => rfl
  | cons x l ih =>
    rw [List.filter_cons]
    split
    · next hx =>
      have hne : name ≠ x.1 := fun he => by simp [he] at hx
      rw [List.lookup_cons, beq_false_of_ne hne]
      exact ih
    · exact ih

/-- A name that was given up stands for no countdown. -/
theorem Trial.find?_drop (t : Trial) (name : String) : (t.drop name).find? name = none := by
  unfold drop
  split
  · assumption
  · simp [find?, lookup_filter_self]

theorem Chronicled.drop (hc : Chronicled past ds rs t) (name : String) :
    Chronicled past (dropDeeds t name ++ ds) rs (t.drop name) := by
  unfold dropDeeds Trial.drop
  cases hf : t.find? name with
  | none => exact hc
  | some f =>
    obtain ⟨i, c⟩ := f
    obtain ⟨hn, hx⟩ := find?_eq_some.1 hf
    refine ⟨hc.recorded.quell hx rfl (Nat.le_succ _) rfl rfl rfl ⟨?_, ?_, ?_, ?_⟩ ?_,
      hc.scheduled.cons rfl, hc.rings⟩
    · intro a ha
      exact hc.scheduled.onTime ha
    · rintro a ⟨⟩
    · rintro a ⟨⟩
    · rintro b (hb | hb) <;> cases hb
    · intro j b hij hj
      obtain ⟨-, hb⟩ := hc.recorded.named j b hj
      have hne : b.name ≠ name := by
        rintro rfl
        exact hij (Option.some.inj (hb.symm.trans hn))
      rw [lookup_filter hne]
      exact hb

theorem Chronicled.new (hc : Chronicled past ds rs t) (hf : t.find? name = none) :
    Chronicled past ds rs { t with countdowns := t.countdowns ++ [{}],
                                   names := (name, t.countdowns.length) :: t.names } := by
  refine ⟨hc.recorded.new ?_, hc.scheduled, hc.rings⟩
  rintro j b hj rfl
  have hlt := hc.recorded.lt_of_armed hj
  rw [find?_eq_some.2 ⟨(hc.recorded.named j b hj).2, List.getElem?_eq_getElem hlt⟩] at hf
  cases hf

theorem Chronicled.arm (hc : Chronicled past ds rs t) (hf : t.find? name = some (i, c)) (ms : Nat)
    (label : String) (whenRung : Option (List Step)) :
    let a : Alarm := ⟨name, i, c.generation + 1, t.agenda.now + ms, label, whenRung⟩
    Chronicled past (⟨t.agenda.now, i, .armed a⟩ :: ds) rs
      { t.put i (c.arm a.due) with agenda := t.agenda.spawn a } := by
  intro a
  obtain ⟨hn, hx⟩ := find?_eq_some.1 hf
  refine ⟨hc.recorded.arm hx hn rfl rfl rfl rfl ⟨?_, ?_, ?_, ?_⟩,
    hc.scheduled.spawn rfl rfl (Nat.le_add_right _ _), hc.rings⟩
  · intro b hb
    exact hc.scheduled.onTime hb
  · rintro b ⟨⟩
    refine ⟨Nat.le_add_right _ _, fun e he b hei hb => ?_⟩
    exact Nat.lt_succ_of_le (hc.recorded.young i c hx e he b hei hb)
  · rintro b ⟨⟩
  · rintro b (hb | hb) <;> cases hb

mutual

theorem Chronicled.step {ds : List Deed} {t : Trial} (hc : Chronicled past ds rs t) : (s : Step) →
    Chronicled past (stepDeeds t s ++ ds) rs (step t s).2
  | .new name => by
    unfold stepDeeds Trial.step
    exact (hc.drop name).new (find?_drop t name)
  | .arm name ms label whenRung => by
    unfold stepDeeds Trial.step
    cases hf : t.find? name with
    | none => exact hc
    | some f => exact hc.arm hf ms label whenRung
  | .cancel name => by
    unfold stepDeeds Trial.step
    cases hf : t.find? name with
    | none => exact hc
    | some f => exact hc.cancel (find?_eq_some.1 hf).2
  | .armed name => by
    unfold stepDeeds Trial.step
    cases hf : t.find? name with
    | none => exact hc
    | some f => exact hc.ask (find?_eq_some.1 hf).2
  | .drop name => by
    unfold stepDeeds Trial.step
    exact hc.drop name
  | .describe name => by
    unfold stepDeeds Trial.step
    cases hf : t.find? name with
    | none => exact hc
    | some f => exact hc
  | .advance _ => by
    unfold stepDeeds Trial.step
    exact hc
  | .batch steps => by
    unfold stepDeeds Trial.step
    exact Chronicled.takeSteps hc steps

theorem Chronicled.takeSteps {ds : List Deed} {t : Trial} (hc : Chronicled past ds rs t) :
    (ss : List Step) → Chronicled past (stepsDeeds t ss ++ ds) rs (takeSteps t ss).2
  | [] => by
    unfold stepsDeeds Trial.takeSteps
    exact hc
  | s :: ss => by
    unfold stepsDeeds Trial.takeSteps
    rw [List.append_assoc]
    exact Chronicled.takeSteps (Chronicled.step hc s) ss

end

/-! ### Alarms -/

theorem ring?_eq_some {c c' : Countdown} {generation : Nat} :
    c.ring? generation = some c' ↔
      c.isPending generation ∧ c' = ⟨generation + 1, none⟩ := by
  unfold ring?
  split
  · next hp => exact ⟨fun he => ⟨hp, (Option.some.inj he).symm⟩, fun he => congrArg some he.2.symm⟩
  · next hp => exact ⟨fun he => (Option.some_ne_none _ he.symm).elim, fun he => absurd he.1 hp⟩

/-- An alarm that is set is pending. -/
theorem Chronicled.pending (hc : Chronicled past ds rs t) (hl : latest? i (ds ++ past) = some (.armed a)) :
    a.countdown = i ∧ ∃ c, t.countdowns[i]? = some c ∧ c.isPending a.generation := by
  have hlt := hc.recorded.lt_of_armed hl
  have hx := List.getElem?_eq_getElem hlt
  have hafter := hc.recorded.state i _ hx
  rw [hl] at hafter
  refine ⟨(hc.recorded.named i a hl).1, _, hx, ?_⟩
  rw [hafter, isPending]
  exact beq_self_eq_true a.generation

/-- The task of an alarm that is pending is that of the alarm that was set last. -/
theorem Chronicled.latest_of_pending (hc : Chronicled past ds rs t) (ha : a ∈ t.agenda.ready)
    (hx : t.countdowns[a.countdown]? = some c) (hp : c.isPending a.generation) :
    latest? a.countdown (ds ++ past) = some (.armed a) := by
  obtain ⟨hdue, hg⟩ := Bool.and_eq_true_iff.1 hp
  obtain ⟨b, hb⟩ := (hc.recorded.state a.countdown c hx).isArmed_iff.1 hdue
  have hafter := hc.recorded.state a.countdown c hx
  rw [hb] at hafter
  have hgb : b.generation = a.generation := by
    rw [← beq_iff_eq, ← hg, hafter]
  obtain ⟨d, hd, hdc, hda⟩ := mem_of_latest? hb
  obtain ⟨e, he, hec, hea⟩ := hc.scheduled.tasks a (.inl ha)
  rw [hb, hc.recorded.lawful.arming_unique hd he hda hea (hdc.trans hec.symm) hgb]

/-- The task of an alarm is taken that was given up meanwhile. -/
theorem Chronicled.take (hc : Chronicled past ds rs t) (hn : t.agenda.next? = some (a, g))
    (ha : ∀ i, latest? i (ds ++ past) ≠ some (.armed a)) :
    Chronicled past ds rs { t with agenda := g } :=
  ⟨hc.recorded, hc.scheduled.take hn ha, hc.rings⟩

/-- The alarm that was set last rings at its moment. -/
theorem Chronicled.ring (hc : Chronicled past ds [] t) (hn : t.agenda.next? = some (a, g))
    (hl : latest? a.countdown (ds ++ past) = some (.armed a)) (hx : t.countdowns[a.countdown]? = some c)
    (hp : c.isPending a.generation) (hdue : ¬ g.now < a.due) :
    Chronicled past (⟨g.now, a.countdown, .rang a⟩ :: ds) [(g.now, a.label, some false)]
      { t.put a.countdown ⟨a.generation + 1, none⟩ with agenda := g } := by
  obtain ⟨hr, hg⟩ := next?_eq hn
  have hnow : g.now = a.due := by
    have hle := hc.scheduled.onTime hl
    have heq : g.now = t.agenda.now := by rw [hg]
    omega
  have hgen : c.generation ≤ a.generation + 1 := by
    rw [beq_iff_eq.1 (Bool.and_eq_true_iff.1 hp).2]
    exact Nat.le_succ _
  have hgone : ∀ i, latest? i (⟨g.now, a.countdown, .rang a⟩ :: (ds ++ past)) ≠ some (.armed a) := by
    intro i hi
    have hself : Deed.concerns a.countdown ⟨g.now, a.countdown, .rang a⟩ := concerns_iff.2 ⟨rfl, rfl⟩
    have hold := latest?_arming rfl hi
    rw [← (hc.recorded.named i a hold).1, latest?_cons_self hself] at hi
    cases hi
  refine ⟨hc.recorded.quell hx rfl hgen rfl rfl rfl ⟨?_, ?_, ?_, ?_⟩ ?_,
    (hc.scheduled.cons rfl).take hn hgone, ?_⟩
  · intro b hb
    rw [hl] at hb
    cases hb
    exact Nat.le_of_eq hnow
  · rintro b ⟨⟩
  · rintro b ⟨⟩
    exact ⟨hl, hnow⟩
  · rintro b (hb | hb) <;> cases hb
  · intro j b _ hj
    exact (hc.recorded.named j b hj).2
  · exact congrArg (_ :: ·) hc.rings

/-- What has been seen of an alarm is put down. -/
theorem Chronicled.putDown {r : Ring} (hc : Chronicled past ds [r.chime] t) :
    Chronicled past ds [] { t with rings := r :: t.rings } :=
  ⟨hc.recorded, hc.scheduled, hc.rings⟩

theorem Chronicled.runAlarm (hc : Chronicled past ds [] t) (hn : t.agenda.next? = some (a, g)) :
    Chronicled past (alarmDeeds { t with agenda := g } a ++ ds) [] (runAlarm { t with agenda := g } a) := by
  have hmem : a ∈ t.agenda.ready := by
    rw [(next?_eq hn).1]
    exact List.mem_cons_self
  unfold alarmDeeds Trial.runAlarm
  cases hx : t.countdowns[a.countdown]? with
  | none =>
    refine hc.take hn fun i hl => ?_
    obtain ⟨rfl, c, hi, -⟩ := hc.pending hl
    rw [hx] at hi
    cases hi
  | some c =>
    dsimp only
    cases hr : c.ring? a.generation with
    | none =>
      refine hc.take hn fun i hl => ?_
      obtain ⟨rfl, c', hi, hp⟩ := hc.pending hl
      rw [hx] at hi
      cases hi
      rw [ring?_eq_some.2 ⟨hp, rfl⟩] at hr
      cases hr
    | some c' =>
      obtain ⟨hp, rfl⟩ := ring?_eq_some.1 hr
      have hl := hc.latest_of_pending hmem hx hp
      dsimp only
      split
      · next hlt => exact ⟨hc.recorded, hc.scheduled.sleep hn hlt, hc.rings⟩
      · next hdue =>
        have hring := hc.ring hn hl hx hp hdue
        have hname := (hc.recorded.named _ a hl).2
        have hlt := (List.getElem?_eq_some_iff.1 hx).1
        have hf : (({ t with agenda := g } : Trial).put a.countdown ⟨a.generation + 1, none⟩).find? a.name =
            some (a.countdown, ⟨a.generation + 1, none⟩) :=
          find?_eq_some.2 ⟨hname, List.getElem?_set_self hlt⟩
        rw [hf]
        cases a.whenRung with
        | none => exact Chronicled.putDown hring
        | some steps =>
          rw [List.append_assoc]
          exact Chronicled.putDown (hring.takeSteps steps)

theorem Chronicled.settle (hc : Chronicled past ds [] t) (n : Nat) :
    Chronicled past (settleDeeds n t ++ ds) [] (settle n t) := by
  induction n generalizing t ds with
  | zero => exact hc
  | succ n ih =>
    unfold settleDeeds Trial.settle
    cases hn : t.agenda.next? with
    | none => exact hc
    | some x =>
      obtain ⟨a, g⟩ := x
      dsimp only
      rw [List.append_assoc]
      exact ih (hc.runAlarm hn)

/-! ### Time -/

/-- Time passes up to the target if there is enough fuel for all that rings meanwhile. -/
theorem Chronicled.advance (hc : Chronicled past ds [] t) (hr : t.agenda.ready = []) (fuel target n : Nat)
    (hn : burden t.agenda < n) (hfuel : burden t.agenda ≤ fuel) :
    Chronicled past (advanceDeeds fuel target n t ++ ds) [] (advance fuel target n t) ∧
      (advance fuel target n t).agenda.ready = [] ∧ (advance fuel target n t).agenda.now = target ∧
      burden (advance fuel target n t).agenda ≤ burden t.agenda := by
  induction n generalizing t ds with
  | zero => cases hn
  | succ n ih =>
    unfold advanceDeeds Trial.advance
    cases he : t.agenda.elapse? target with
    | none =>
      refine ⟨⟨hc.recorded, hc.scheduled.jump hr he, hc.rings⟩, hr, rfl, ?_⟩
      show burden { t.agenda with now := target } ≤ _
      unfold burden
      rw [hr]
      exact Nat.le_refl _
    | some g =>
      obtain ⟨hs, hb, hne⟩ := hc.scheduled.elapse hr he
      have hwoken : Chronicled past ds [] { t with agenda := g } := ⟨hc.recorded, hs, hc.rings⟩
      obtain ⟨-, hle, hlt, hready⟩ := burden_settle fuel { t with agenda := g }
      dsimp only at hle hlt hready
      have hfuel0 : fuel ≠ 0 := by
        rintro rfl
        exact hne (ready_of_burden (by omega))
      have hless := hlt hfuel0 hne
      obtain ⟨hc', hr', hnow, hb'⟩ := ih (hwoken.settle fuel) (hready (by omega)) (by omega) (by omega)
      dsimp only
      rw [List.append_assoc]
      exact ⟨hc', hr', hnow, by omega⟩

end
end Aftermath.Countdown
