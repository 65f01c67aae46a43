import Aftermath.Countdown.Trial

/-! What happens to the countdowns of a trial, one deed after another, the newest first. A deed is lawful if
it fits those before it: an alarm rings only as the last thing that was set, and just at its moment, and who
asks or cancels is told whether one is set. -/

namespace Aftermath.Countdown

inductive Act where
  | armed (a : Alarm)
  | cancelled (answer : Bool)
  | dropped
  | rang (a : Alarm)
  | asked (answer : Bool)

structure Deed where
  time : Nat
  countdown : Nat
  act : Act

def Act.isQuestion : Act → Bool
  | .asked _ => true
  | _ => false

def Act.overrides : Act → Bool
  | .armed _ | .cancelled _ | .dropped => true
  | .rang _ | .asked _ => false

def Act.isArming : Act → Bool
  | .armed _ => true
  | _ => false

def Reply.isTrue : Reply → Bool
  | .bool b => b
  | _ => false

def Deed.concerns (i : Nat) (d : Deed) : Bool := d.countdown == i && !d.act.isQuestion

/-- What has happened to a countdown last. -/
def latest? (i : Nat) (ds : List Deed) : Option Act := (ds.find? (Deed.concerns i)).map Deed.act

def first? (i : Nat) (ds : List Deed) : Option Deed := ds.reverse.find? (Deed.concerns i)

def Deed.isRing (i g : Nat) (d : Deed) : Bool :=
  match d.act with
  | .rang a => d.countdown == i && a.generation == g
  | _ => false

def Deed.isArming (i g : Nat) (d : Deed) : Bool :=
  match d.act with
  | .armed a => d.countdown == i && a.generation == g
  | _ => false

/-! ### The deeds of a trial -/

namespace Trial

def dropDeeds (t : Trial) (name : String) : List Deed :=
  match t.find? name with
  | none => []
  | some (i, _) => [⟨t.agenda.now, i, .dropped⟩]

mutual

/-- What a step does to the countdowns; answers are taken from its reply. -/
def stepDeeds (t : Trial) : Step → List Deed
  | .new name => dropDeeds t name
  | .arm name ms label whenRung =>
    match t.find? name with
    | none => []
    | some (i, c) =>
      [⟨t.agenda.now, i, .armed ⟨name, i, c.generation + 1, t.agenda.now + ms, label, whenRung⟩⟩]
  | .cancel name =>
    match t.find? name with
    | none => []
    | some (i, _) => [⟨t.agenda.now, i, .cancelled (step t (.cancel name)).1.isTrue⟩]
  | .armed name =>
    match t.find? name with
    | none => []
    | some (i, _) => [⟨t.agenda.now, i, .asked (step t (.armed name)).1.isTrue⟩]
  | .drop name => dropDeeds t name
  | .describe _ => []
  | .advance _ => []
  | .batch steps => stepsDeeds t steps

def stepsDeeds (t : Trial) : List Step → List Deed
  | [] => []
  | s :: ss => stepsDeeds (step t s).2 ss ++ stepDeeds t s

end

/-- An alarm that rings, and then what the steps it carries do. -/
def alarmDeeds (t : Trial) (a : Alarm) : List Deed :=
  match t.countdowns[a.countdown]? with
  | none => []
  | some c =>
    match c.ring? a.generation with
    | none => []
    | some c =>
      if t.agenda.now < a.due then []
      else
        (match a.whenRung with
        | none => []
        | some steps => stepsDeeds (t.put a.countdown c) steps) ++
          [⟨t.agenda.now, a.countdown, .rang a⟩]

def settleDeeds : Nat → Trial → List Deed
  | 0, _ => []
  | fuel + 1, t =>
    match t.agenda.next? with
    | none => []
    | some (a, agenda) =>
      settleDeeds fuel (runAlarm { t with agenda } a) ++ alarmDeeds { t with agenda } a

def advanceDeeds (fuel : Nat) (target : Nat) : Nat → Trial → List Deed
  | 0, _ => []
  | n + 1, t =>
    match t.agenda.elapse? target with
    | none => []
    | some agenda =>
      advanceDeeds fuel target n (settle fuel { t with agenda }) ++ settleDeeds fuel { t with agenda }

def runStepDeeds (fuel : Nat) (t : Trial) (s : Step) : List Deed :=
  match s with
  | .advance ms =>
    settleDeeds fuel (advance fuel (t.agenda.now + ms) fuel t) ++
      advanceDeeds fuel (t.agenda.now + ms) fuel t
  | s => settleDeeds fuel (step t s).2 ++ stepDeeds t s

def runDeeds (fuel : Nat) : Trial → List Step → List Deed
  | _, [] => []
  | t, s :: ss => runDeeds fuel (runStep fuel t s).2 ss ++ runStepDeeds fuel t s

end Trial

/-- All that happens in a trial. -/
def history (steps : List Step) : List Deed := Trial.runDeeds (2 * sizes steps + 2) {} steps

/-! ### What has happened last -/

section
variable {i j : Nat} {d e : Deed} {ds newer older : List Deed} {a b : Alarm} {act : Act}

theorem concerns_iff : d.concerns i ↔ d.countdown = i ∧ d.act.isQuestion = false := by
  simp [Deed.concerns]

theorem latest?_cons_self (hd : d.concerns i) : latest? i (d :: ds) = some d.act := by
  rw [latest?, List.find?_cons_of_pos hd]
  rfl

theorem latest?_cons_other (hd : ¬ d.concerns i) : latest? i (d :: ds) = latest? i ds := by
  rw [latest?, List.find?_cons_of_neg hd]
  rfl

theorem latest?_cons_ne (hd : d.countdown ≠ i) : latest? i (d :: ds) = latest? i ds :=
  latest?_cons_other fun hc => hd (concerns_iff.1 hc).1

/-- What has happened last has happened. -/
theorem mem_of_latest? (hl : latest? i ds = some act) :
    ∃ d ∈ ds, d.countdown = i ∧ d.act = act := by
  obtain ⟨d, hd, rfl⟩ := Option.map_eq_some_iff.1 hl
  exact ⟨d, List.mem_of_find?_eq_some hd, (concerns_iff.1 (List.find?_some hd)).1, rfl⟩

/-- Unless an alarm is set, none is set that was not. -/
theorem latest?_arming (hd : d.act.isArming = false) (hl : latest? i (d :: ds) = some (.armed a)) :
    latest? i ds = some (.armed a) := by
  by_cases hc : d.concerns i
  · rw [latest?_cons_self hc] at hl
    rw [Option.some.inj hl] at hd
    cases hd
  · rwa [latest?_cons_other hc] at hl

/-- Nothing has happened to a countdown since. -/
theorem latest?_append_of_none (hf : first? i newer = none) :
    latest? i (newer ++ older) = latest? i older := by
  rw [first?, List.find?_eq_none] at hf
  unfold latest?
  rw [List.find?_append, List.find?_eq_none.2 fun d hd => hf d (List.mem_reverse.2 hd)]
  rfl

end

/-! ### Lawful deeds -/

/-- A deed fits those before it. -/
structure Deed.Lawful (d : Deed) (past : List Deed) : Prop where
  /-- An alarm that is set does not miss its moment. -/
  onTime : ∀ a, latest? d.countdown past = some (.armed a) → d.time ≤ a.due
  /-- Alarms are told apart by their generations. -/
  arming : ∀ a, d.act = .armed a → d.time ≤ a.due ∧
    ∀ e ∈ past, ∀ b, e.countdown = d.countdown → e.act = .armed b → b.generation < a.generation
  /-- It is the alarm set last that rings, at its moment. -/
  ringing : ∀ a, d.act = .rang a → latest? d.countdown past = some (.armed a) ∧ d.time = a.due
  answer : ∀ b, d.act = .asked b ∨ d.act = .cancelled b →
    (b = true ↔ ∃ a, latest? d.countdown past = some (.armed a))

def Lawful : List Deed → Prop
  | [] => True
  | d :: ds => d.Lawful ds ∧ Lawful ds

section
variable {i g : Nat} {d e : Deed} {ds newer older later mid : List Deed} {a b : Alarm}

theorem Lawful.of_append (hl : Lawful (newer ++ ds)) : Lawful ds := by
  induction newer with
  | nil => exact hl
  | cons d newer ih => exact ih hl.2

/-- An alarm is known by its countdown and its generation. -/
theorem Lawful.arming_unique (hl : Lawful ds) (hd : d ∈ ds) (he : e ∈ ds) (ha : d.act = .armed a)
    (hb : e.act = .armed b) (hi : d.countdown = e.countdown) (hg : a.generation = b.generation) :
    a = b := by
  induction ds with
  | nil => cases hd
  | cons f ds ih =>
    obtain ⟨hf, hl⟩ := hl
    rw [List.mem_cons] at hd he
    rcases hd with rfl | hd
    · rcases he with rfl | he
      · exact Act.armed.inj (ha.symm.trans hb)
      · have hlt := (hf.arming a ha).2 e he b hi.symm hb
        exact absurd hg.symm (Nat.ne_of_lt hlt)
    · rcases he with rfl | he
      · have hlt := (hf.arming b hb).2 d hd a hi ha
        exact absurd hg (Nat.ne_of_lt hlt)
      · exact ih hl hd he

/-- Each alarm is set once. -/
theorem Lawful.countP_arming (hl : Lawful ds) (i g : Nat) : ds.countP (·.isArming i g) ≤ 1 := by
  induction ds with
  | nil => exact Nat.zero_le _
  | cons d ds ih =>
    have hle := ih hl.2
    rw [List.countP_cons]
    split
    · next hd =>
      -- The older ones are of lower generations.
      have hnone : ds.countP (·.isArming i g) = 0 := by
        rw [List.countP_eq_zero]
        intro e he hx
        unfold Deed.isArming at hd hx
        split at hd
        · next a ha =>
          split at hx
          · next b hb =>
            simp only [Bool.and_eq_true, beq_iff_eq] at hd hx
            have hlt := (hl.1.arming a ha).2 e he b (hx.1.trans hd.1.symm) hb
            exact absurd (hx.2.trans hd.2.symm) (Nat.ne_of_lt hlt)
          · cases hx
        · cases hd
      omega
    · exact hle

/-- One while that alarm is set. -/
def pendings (i g : Nat) (ds : List Deed) : Nat :=
  match latest? i ds with
  | some (.armed a) => if a.generation = g then 1 else 0
  | _ => 0

theorem pendings_le (i g : Nat) (ds : List Deed) : pendings i g ds ≤ 1 := by
  unfold pendings
  split
  · split
    · exact Nat.le_refl _
    · exact Nat.zero_le _
  · exact Nat.zero_le _

theorem not_concerns (hc : ¬ d.concerns i) (hq : d.act.isQuestion = false) : d.countdown ≠ i :=
  fun hi => hc (concerns_iff.2 ⟨hi, hq⟩)

/-- An alarm that has been set is set still, or it has rung at most as often as it was set. -/
theorem Lawful.countP_ring (hl : Lawful ds) (i g : Nat) :
    ds.countP (·.isRing i g) + pendings i g ds ≤ ds.countP (·.isArming i g) := by
  induction ds with
  | nil => exact Nat.le_refl _
  | cons d ds ih =>
    obtain ⟨hd, hl⟩ := hl
    have hsum := ih hl
    have hle := pendings_le i g ds
    rw [List.countP_cons, List.countP_cons]
    by_cases hc : d.concerns i
    · obtain ⟨hi, -⟩ := concerns_iff.1 hc
      have hnow : latest? i (d :: ds) = some d.act := latest?_cons_self hc
      cases hact : d.act with
      | armed a =>
        have hp : pendings i g (d :: ds) = if a.generation = g then 1 else 0 := by
          rw [pendings, hnow, hact]
        have hr : d.isRing i g = false := by rw [Deed.isRing, hact]
        have hs : (if d.isArming i g then 1 else 0) = if a.generation = g then 1 else 0 := by
          simp [Deed.isArming, hact, hi]
        rw [hp, hr, hs, if_neg Bool.false_ne_true]
        omega
      | rang a =>
        -- What rings now was set until now.
        have hset := (hd.ringing a hact).1
        rw [hi] at hset
        have hold : pendings i g ds = if a.generation = g then 1 else 0 := by rw [pendings, hset]
        have hp : pendings i g (d :: ds) = 0 := by rw [pendings, hnow, hact]
        have hr : (if d.isRing i g then 1 else 0) = if a.generation = g then 1 else 0 := by
          simp [Deed.isRing, hact, hi]
        have hs : d.isArming i g = false := by rw [Deed.isArming, hact]
        rw [hold] at hsum
        rw [hp, hr, hs, if_neg Bool.false_ne_true]
        omega
      | cancelled | dropped | asked =>
        have hp : pendings i g (d :: ds) = 0 := by rw [pendings, hnow, hact]
        have hr : d.isRing i g = false := by rw [Deed.isRing, hact]
        have hs : d.isArming i g = false := by rw [Deed.isArming, hact]
        rw [hp, hr, hs, if_neg Bool.false_ne_true]
        omega
    · have hp : pendings i g (d :: ds) = pendings i g ds := by
        rw [pendings, latest?_cons_other hc, pendings]
      have hr : d.isRing i g = false := by
        cases hact : d.act with
        | rang a =>
          have hne := not_concerns hc (by rw [hact]; rfl)
          simp [Deed.isRing, hact, hne]
        | _ => rw [Deed.isRing, hact]
      rw [hp, hr, if_neg Bool.false_ne_true]
      omega

/-! ### After an alarm was set -/

theorem exists_of_first? (hf : first? i newer = some e) :
    e.concerns i ∧ ∃ later mid, newer = later ++ e :: mid ∧ first? i mid = none := by
  unfold first? at hf
  obtain ⟨he, xs, ys, hx, hn⟩ := List.find?_eq_some_iff_append.1 hf
  refine ⟨he, ys.reverse, xs.reverse, ?_, ?_⟩
  · rw [← List.reverse_reverse newer, hx]
    simp
  · rw [first?, List.reverse_reverse, List.find?_eq_none]
    intro d hd
    simpa using hn d hd

/-- An alarm does not ring after something has happened to its countdown: it would have to be set once
more, in the same generation. -/
theorem Lawful.rings_first (hl : Lawful (later ++ e :: (mid ++ d :: older))) (hi : d.countdown = i)
    (ha : d.act = .armed a) (he : e.concerns i) {r : Deed} (hr : r ∈ later) (hri : r.countdown = i) :
    r.act ≠ .rang a := by
  intro hra
  have hcount := hl.countP_arming i a.generation
  obtain ⟨l1, l2, rfl⟩ := List.append_of_mem hr
  rw [List.append_assoc, List.cons_append] at hl hcount
  have hring := (hl.of_append.1.ringing a hra).1
  rw [hri] at hring
  have hagain : latest? i (l2 ++ [e]) = some (.armed a) := by
    unfold latest? at hring ⊢
    rw [List.find?_append, List.find?_cons_of_pos he] at hring
    rw [List.find?_append, List.find?_cons_of_pos he]
    exact hring
  obtain ⟨f, hfm, hfi, hfa⟩ := mem_of_latest? hagain
  have hone : 0 < (l2 ++ [e]).countP (·.isArming i a.generation) :=
    List.countP_pos_iff.2 ⟨f, hfm, by simp [Deed.isArming, hfi, hfa]⟩
  have htwo : d.isArming i a.generation := by simp [Deed.isArming, hi, ha]
  rw [List.countP_append, List.countP_cons, List.countP_append, List.countP_cons, List.countP_append,
    List.countP_cons, if_pos htwo] at hcount
  rw [List.countP_append, List.countP_cons, List.countP_nil] at hone
  omega

/-- What follows on an alarm: it rings at its moment, or something else happens to the countdown no later,
and then it never rings. -/
theorem Lawful.follows (hl : Lawful (newer ++ d :: older)) (hi : d.countdown = i) (ha : d.act = .armed a)
    (hf : first? i newer = some e) :
    e.time ≤ a.due ∧ (e.act.overrides = false → e.act = .rang a ∧ e.time = a.due) ∧
      ((∃ r ∈ newer, r.countdown = i ∧ r.act = .rang a) ↔ e.act.overrides = false) := by
  obtain ⟨he, later, mid, rfl, hmid⟩ := exists_of_first? hf
  obtain ⟨hei, heq⟩ := concerns_iff.1 he
  rw [List.append_assoc, List.cons_append] at hl
  have hlaw := hl.of_append.1
  have hset : latest? e.countdown (mid ++ d :: older) = some (.armed a) := by
    have hd : d.concerns i := concerns_iff.2 ⟨hi, by rw [ha]; rfl⟩
    rw [hei, latest?_append_of_none hmid, latest?_cons_self hd, ha]
  have hrang : e.act.overrides = false → e.act = .rang a ∧ e.time = a.due := by
    intro ho
    cases hact : e.act with
    | rang b =>
      obtain ⟨hb, htime⟩ := hlaw.ringing b hact
      obtain rfl : a = b := Act.armed.inj (Option.some.inj (hset.symm.trans hb))
      exact ⟨rfl, htime⟩
    | asked => rw [hact] at heq; cases heq
    | armed | cancelled | dropped => rw [hact] at ho; cases ho
  refine ⟨hlaw.onTime a hset, hrang, ⟨?_, fun ho => ?_⟩⟩
  · rintro ⟨r, hr, hri, hra⟩
    -- it is the first thing that happens
    rcases List.mem_append.1 hr with hr | hr
    · exact absurd hra (hl.rings_first hi ha he hr hri)
    · rcases List.mem_cons.1 hr with rfl | hr
      · rw [hra]
        rfl
      · have hrc : r.concerns i := concerns_iff.2 ⟨hri, by rw [hra]; rfl⟩
        rw [first?, List.find?_eq_none] at hmid
        exact absurd hrc (hmid r (List.mem_reverse.2 hr))
  · exact ⟨e, List.mem_append_right _ List.mem_cons_self, hei, (hrang ho).1⟩

end
end Aftermath.Countdown
