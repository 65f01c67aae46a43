import Aftermath.Proofs.Countdown.Burden
import Aftermath.Proofs.Countdown.Deeds

/-! The state of a trial goes with what has happened in it: a countdown is armed just when an alarm was set
last, and the task of that alarm waits for its turn or for its moment. -/

namespace Aftermath.Countdown

def After (c : Countdown) (last : Option Act) : Prop :=
  match last with
  | some (.armed a) => c = ⟨a.generation, some a.due⟩
  | _ => c.due = none

/-- Countdowns and names go with what has happened. -/
structure Recorded (ds : List Deed) (cs : List Countdown) (names : List (String × Nat)) : Prop where
  lawful : Lawful ds
  known : ∀ d ∈ ds, d.countdown < cs.length
  state : ∀ i (c : Countdown), cs[i]? = some c → c.After (latest? i ds)
  young : ∀ i (c : Countdown), cs[i]? = some c → ∀ d ∈ ds, ∀ a, d.countdown = i → d.act = .armed a →
    a.generation ≤ c.generation
  /-- The name of an alarm that is set still stands for its countdown. -/
  named : ∀ i a, latest? i ds = some (.armed a) → a.countdown = i ∧ names.lookup a.name = some i

structure Scheduled (ds : List Deed) (g : Agenda Alarm) : Prop where
  pending : ∀ i a, latest? i ds = some (.armed a) → a ∈ g.ready ∨ (a.due, a) ∈ g.timers
  tasks : ∀ a, a ∈ g.ready ∨ (∃ due, (due, a) ∈ g.timers) →
    ∃ d ∈ ds, d.countdown = a.countdown ∧ d.act = .armed a
  ready : ∀ a ∈ g.ready, g.now ≤ a.due
  timers : ∀ x ∈ g.timers, x.1 = x.2.due ∧ g.now < x.1
  sorted : g.timers.Pairwise fun x y => x.1 ≤ y.1

section
variable {ds : List Deed} {d : Deed} {cs : List Countdown} {names names' : List (String × Nat)}
variable {g g' : Agenda Alarm} {a b : Alarm} {c c' : Countdown} {i j target : Nat} {name : String}

/-! ### Countdowns and names -/

theorem After.isArmed_iff {last : Option Act} (ha : c.After last) :
    c.isArmed ↔ ∃ a, last = some (.armed a) := by
  unfold After at ha
  split at ha
  · next a =>
    subst ha
    exact ⟨fun _ => ⟨a, rfl⟩, fun _ => rfl⟩
  · next hn =>
    constructor
    · intro hc
      rw [isArmed, ha] at hc
      cases hc
    · rintro ⟨a, rfl⟩
      exact absurd rfl (hn a)

theorem Recorded.lt_of_armed (hr : Recorded ds cs names) (hl : latest? i ds = some (.armed a)) :
    i < cs.length := by
  obtain ⟨d, hd, rfl, -⟩ := mem_of_latest? hl
  exact hr.known d hd

theorem Recorded.ask (hr : Recorded ds cs names) (hq : d.act.isQuestion) (hk : d.countdown < cs.length)
    (hl : d.Lawful ds) : Recorded (d :: ds) cs names := by
  have hlast : ∀ i, latest? i (d :: ds) = latest? i ds := fun i =>
    latest?_cons_other fun hc => by
      rw [(concerns_iff.1 hc).2] at hq
      cases hq
  refine ⟨⟨hl, hr.lawful⟩, fun e he => ?_, fun i c hc => ?_, fun i c hc e he a hi ha => ?_,
    fun i a hi => ?_⟩
  · rcases List.mem_cons.1 he with rfl | he
    · exact hk
    · exact hr.known e he
  · rw [hlast]
    exact hr.state i c hc
  · rcases List.mem_cons.1 he with rfl | he
    · rw [ha] at hq
      cases hq
    · exact hr.young i c hc e he a hi ha
  · rw [hlast] at hi
    exact hr.named i a hi

theorem getElem?_set_cases {x : Countdown} (hx : (cs.set i c')[j]? = some x) :
    j = i ∧ x = c' ∨ j ≠ i ∧ cs[j]? = some x := by
  by_cases hij : j = i
  · subst hij
    rw [List.getElem?_set_self (by simpa using (List.getElem?_eq_some_iff.1 hx).1)] at hx
    exact .inl ⟨rfl, (Option.some.inj hx).symm⟩
  · rw [List.getElem?_set_ne fun he => hij he.symm] at hx
    exact .inr ⟨hij, hx⟩

/-- Something happens to a countdown. -/
theorem Recorded.put (hr : Recorded ds cs names) (hc : cs[i]? = some c) (hi : d.countdown = i)
    (hq : d.act.isQuestion = false) (hl : d.Lawful ds) (hafter : c'.After (some d.act))
    (hg : c.generation ≤ c'.generation)
    (hn : ∀ j b, latest? j (d :: ds) = some (.armed b) → b.countdown = j ∧ names'.lookup b.name = some j) :
    Recorded (d :: ds) (cs.set i c') names' := by
  refine ⟨⟨hl, hr.lawful⟩, fun e he => ?_, fun j x hx => ?_, fun j x hx e he a hj hact => ?_, hn⟩
  · rw [List.length_set]
    rcases List.mem_cons.1 he with rfl | he
    · rw [hi]
      exact (List.getElem?_eq_some_iff.1 hc).1
    · exact hr.known e he
  · rcases getElem?_set_cases hx with ⟨rfl, rfl⟩ | ⟨hij, hx⟩
    · rw [latest?_cons_self (concerns_iff.2 ⟨hi, hq⟩)]
      exact hafter
    · rw [latest?_cons_ne fun he => hij (he.symm.trans hi)]
      exact hr.state j x hx
  · rcases List.mem_cons.1 he with rfl | he
    · rcases getElem?_set_cases hx with ⟨rfl, rfl⟩ | ⟨hij, -⟩
      · rw [hact] at hafter
        exact Nat.le_of_eq (congrArg Countdown.generation hafter.symm)
      · exact absurd (hj.symm.trans hi) hij
    · rcases getElem?_set_cases hx with ⟨rfl, rfl⟩ | ⟨-, hx⟩
      · exact Nat.le_trans (hr.young j c hc e he a hj hact) hg
      · exact hr.young j x hx e he a hj hact

/-- A countdown is left without an alarm. -/
theorem Recorded.quell (hr : Recorded ds cs names) (hc : cs[i]? = some c) (hc' : c'.due = none)
    (hg : c.generation ≤ c'.generation) (hi : d.countdown = i) (hq : d.act.isQuestion = false)
    (ha : d.act.isArming = false) (hl : d.Lawful ds)
    (hn : ∀ j b, j ≠ i → latest? j ds = some (.armed b) → names'.lookup b.name = some j) :
    Recorded (d :: ds) (cs.set i c') names' := by
  refine hr.put hc hi hq hl ?_ hg fun j b hj => ?_
  · cases hact : d.act with
    | armed => rw [hact] at ha; cases ha
    | _ => exact hc'
  · by_cases hij : j = i
    · rw [latest?_cons_self (concerns_iff.2 ⟨hi.trans hij.symm, hq⟩)] at hj
      rw [Option.some.inj hj] at ha
      cases ha
    · rw [latest?_cons_ne fun he => hij (he.symm.trans hi)] at hj
      exact ⟨(hr.named j b hj).1, hn j b hij hj⟩

/-- An alarm is set. -/
theorem Recorded.arm (hr : Recorded ds cs names) (hc : cs[i]? = some c)
    (hn : names.lookup a.name = some i) (ha : a.countdown = i) (hg : a.generation = c.generation + 1)
    (hi : d.countdown = i) (hact : d.act = .armed a) (hl : d.Lawful ds) :
    Recorded (d :: ds) (cs.set i (c.arm a.due)) names := by
  have hq : d.act.isQuestion = false := by rw [hact]; rfl
  refine hr.put hc hi hq hl ?_ (Nat.le_succ _) fun j b hj => ?_
  · rw [hact]
    show c.arm a.due = ⟨a.generation, some a.due⟩
    rw [hg]
    rfl
  · by_cases hij : j = i
    · rw [latest?_cons_self (concerns_iff.2 ⟨hi.trans hij.symm, hq⟩), hact] at hj
      cases hj
      exact ⟨ha.trans hij.symm, hn.trans (congrArg some hij.symm)⟩
    · rw [latest?_cons_ne fun he => hij (he.symm.trans hi)] at hj
      exact hr.named j b hj

/-- A countdown is made under a name that no alarm goes by. -/
theorem Recorded.new (hr : Recorded ds cs names)
    (hn : ∀ j b, latest? j ds = some (.armed b) → b.name ≠ name) :
    Recorded ds (cs ++ [({} : Countdown)]) ((name, cs.length) :: names) := by
  have hold : ∀ i (c : Countdown), (cs ++ [({} : Countdown)])[i]? = some c → cs[i]? = some c ∨ i = cs.length ∧ c = {} := by
    intro i c hc
    rw [List.getElem?_append] at hc
    split at hc
    · exact .inl hc
    · next hi =>
      obtain ⟨hz, hx⟩ := List.getElem?_eq_some_iff.1 hc
      rw [List.length_singleton] at hz
      exact .inr ⟨by omega, by simpa using hx.symm⟩
  have hnone : ∀ d ∈ ds, d.countdown ≠ cs.length := fun d hd => Nat.ne_of_lt (hr.known d hd)
  refine ⟨hr.lawful, fun d hd => ?_, fun i c hc => ?_, fun i c hc d hd a hi ha => ?_, fun i a hi => ?_⟩
  · rw [List.length_append]
    exact Nat.lt_add_right _ (hr.known d hd)
  · rcases hold i c hc with hc | ⟨rfl, rfl⟩
    · exact hr.state i c hc
    · have hl : latest? cs.length ds = none := by
        cases hx : latest? cs.length ds with
        | none => rfl
        | some act =>
          obtain ⟨d, hd, hi, -⟩ := mem_of_latest? hx
          exact absurd hi (hnone d hd)
      rw [hl]
      rfl
  · rcases hold i c hc with hc | ⟨rfl, -⟩
    · exact hr.young i c hc d hd a hi ha
    · exact absurd hi (hnone d hd)
  · obtain ⟨hc, hl⟩ := hr.named i a hi
    refine ⟨hc, ?_⟩
    rw [List.lookup_cons, beq_false_of_ne (hn i a hi)]
    exact hl

theorem lookup_filter (hn : b.name ≠ name) (l : List (String × Nat)) :
    (l.filter fun n => n.1 != name).lookup b.name = l.lookup b.name := by
  induction l with
  | nil => rfl
  | cons x l ih =>
    rw [List.filter_cons, List.lookup_cons]
    split
    · rw [List.lookup_cons, ih]
    · next hx =>
      have hxn : x.1 = name := by simpa using hx
      rw [ih, beq_false_of_ne fun he => hn (he.trans hxn)]

/-! ### Tasks -/

/-- While nothing is set, the tasks stay as they are. -/
theorem Scheduled.cons (hs : Scheduled ds g) (ha : d.act.isArming = false) : Scheduled (d :: ds) g where
  pending i a hl := hs.pending i a (latest?_arming ha hl)
  tasks a hm := by
    obtain ⟨e, he, hx⟩ := hs.tasks a hm
    exact ⟨e, List.mem_cons_of_mem _ he, hx⟩
  ready := hs.ready
  timers := hs.timers
  sorted := hs.sorted

theorem Scheduled.onTime (hs : Scheduled ds g) (hl : latest? i ds = some (.armed a)) : g.now ≤ a.due := by
  rcases hs.pending i a hl with hr | ht
  · exact hs.ready a hr
  · exact Nat.le_of_lt (hs.timers _ ht).2

theorem Scheduled.spawn (hs : Scheduled ds g) (hi : d.countdown = a.countdown) (ha : d.act = .armed a)
    (hd : g.now ≤ a.due) : Scheduled (d :: ds) (g.spawn a) where
  pending i b hl := by
    by_cases hc : d.concerns i
    · rw [latest?_cons_self hc, ha] at hl
      cases hl
      exact .inl (List.mem_append_right _ List.mem_cons_self)
    · rw [latest?_cons_other hc] at hl
      exact (hs.pending i b hl).imp (List.mem_append_left _) id
  tasks b hm := by
    have hold : (b ∈ g.ready ∨ ∃ due, (due, b) ∈ g.timers) ∨ b = a := by
      rcases hm with hm | hm
      · rcases List.mem_append.1 hm with hm | hm
        · exact .inl (.inl hm)
        · exact .inr (List.mem_singleton.1 hm)
      · exact .inl (.inr hm)
    rcases hold with hold | rfl
    · obtain ⟨e, he, hx⟩ := hs.tasks b hold
      exact ⟨e, List.mem_cons_of_mem _ he, hx⟩
    · exact ⟨d, List.mem_cons_self, hi, ha⟩
  ready b hb := by
    rcases List.mem_append.1 hb with hb | hb
    · exact hs.ready b hb
    · rw [List.mem_singleton.1 hb]
      exact hd
  timers := hs.timers
  sorted := hs.sorted

/-- A task that is taken is no longer needed, or it lies down until its moment. -/
theorem Scheduled.take (hs : Scheduled ds g) (hn : g.next? = some (a, g'))
    (ha : ∀ i, latest? i ds ≠ some (.armed a)) : Scheduled ds g' := by
  obtain ⟨hr, hg⟩ := next?_eq hn
  have hnow : g'.now = g.now := by rw [hg]
  have htimers : g'.timers = g.timers := by rw [hg]
  refine ⟨fun i b hl => ?_, fun b hm => hs.tasks b ?_, fun b hb => ?_, ?_, ?_⟩
  · rw [htimers]
    refine (hs.pending i b hl).imp (fun hb => ?_) id
    rw [hr] at hb
    rcases List.mem_cons.1 hb with rfl | hb
    · exact absurd hl (ha i)
    · exact hb
  · rw [htimers] at hm
    exact hm.imp (fun hb => by rw [hr]; exact List.mem_cons_of_mem _ hb) id
  · rw [hnow]
    exact hs.ready b (by rw [hr]; exact List.mem_cons_of_mem _ hb)
  · rw [hnow, htimers]
    exact hs.timers
  · rw [htimers]
    exact hs.sorted

theorem mem_insertTimer {due : Nat} {x : Nat × Alarm} {l : List (Nat × Alarm)} :
    x ∈ Agenda.insertTimer due a l ↔ x = (due, a) ∨ x ∈ l := by
  induction l with
  | nil => simp [Agenda.insertTimer]
  | cons y l ih =>
    obtain ⟨d, b⟩ := y
    unfold Agenda.insertTimer
    split
    · exact List.mem_cons
    · rw [List.mem_cons, ih, List.mem_cons, or_left_comm]

theorem sorted_insertTimer {due : Nat} {l : List (Nat × Alarm)} (hl : l.Pairwise fun x y => x.1 ≤ y.1) :
    (Agenda.insertTimer due a l).Pairwise fun x y => x.1 ≤ y.1 := by
  induction l with
  | nil => exact List.pairwise_singleton _ _
  | cons y l ih =>
    obtain ⟨d, b⟩ := y
    rw [List.pairwise_cons] at hl
    unfold Agenda.insertTimer
    split
    · next hlt =>
      refine List.pairwise_cons.2 ⟨fun x hx => ?_, List.pairwise_cons.2 hl⟩
      rcases List.mem_cons.1 hx with rfl | hx
      · exact Nat.le_of_lt hlt
      · exact Nat.le_trans (Nat.le_of_lt hlt) (hl.1 x hx)
    · next hge =>
      refine List.pairwise_cons.2 ⟨fun x hx => ?_, ih hl.2⟩
      rcases mem_insertTimer.1 hx with rfl | hx
      · exact Nat.le_of_not_lt hge
      · exact hl.1 x hx

theorem Scheduled.sleep (hs : Scheduled ds g) (hn : g.next? = some (a, g')) (ha : g'.now < a.due) :
    Scheduled ds (g'.sleep a.due a) := by
  obtain ⟨hr, hg⟩ := next?_eq hn
  have hnow : g'.now = g.now := by rw [hg]
  have htimers : g'.timers = g.timers := by rw [hg]
  have hmem : ∀ x, x ∈ (g'.sleep a.due a).timers ↔ x = (a.due, a) ∨ x ∈ g.timers := by
    intro x
    rw [← htimers]
    exact mem_insertTimer
  refine ⟨fun i b hl => ?_, fun b hm => hs.tasks b ?_, fun b hb => ?_, fun x hx => ?_, ?_⟩
  · rcases hs.pending i b hl with hb | hb
    · rw [hr] at hb
      rcases List.mem_cons.1 hb with rfl | hb
      · exact .inr ((hmem _).2 (.inl rfl))
      · exact .inl hb
    · exact .inr ((hmem _).2 (.inr hb))
  · rw [hr]
    rcases hm with hb | ⟨due, hb⟩
    · exact .inl (List.mem_cons_of_mem _ hb)
    · rcases (hmem _).1 hb with he | hb
      · cases he
        exact .inl List.mem_cons_self
      · exact .inr ⟨due, hb⟩
  · show g'.now ≤ b.due
    rw [hnow]
    exact hs.ready b (by rw [hr]; exact List.mem_cons_of_mem _ hb)
  · show x.1 = x.2.due ∧ g'.now < x.1
    rcases (hmem x).1 hx with rfl | hx
    · exact ⟨rfl, ha⟩
    · rw [hnow]
      exact hs.timers x hx
  · refine sorted_insertTimer ?_
    rw [htimers]
    exact hs.sorted

/-! ### Time passes -/

theorem lt_of_dropWhile {due : Nat} {x : Nat × Alarm} {l : List (Nat × Alarm)}
    (hl : l.Pairwise fun x y => x.1 ≤ y.1) (hx : x ∈ l.dropWhile fun t => t.1 ≤ due) : due < x.1 := by
  induction l with
  | nil => cases hx
  | cons y l ih =>
    rw [List.pairwise_cons] at hl
    by_cases hy : y.1 ≤ due
    · rw [List.dropWhile_cons_of_pos (by simpa using hy)] at hx
      exact ih hl.2 hx
    · rw [List.dropWhile_cons_of_neg (by simpa using hy)] at hx
      rcases List.mem_cons.1 hx with rfl | hx
      · omega
      · have hle := hl.1 x hx
        omega

/-- Alarms whose moment has come weigh as much as they did in their sleep. -/
theorem readyBurden_awake {now : Nat} {l : List (Nat × Alarm)} (hl : ∀ x ∈ l, x.2.due ≤ now) :
    readyBurden now (l.map Prod.snd) = timersBurden l := by
  induction l with
  | nil => rfl
  | cons x l ih =>
    have hx : ¬ now < x.2.due := Nat.not_lt.2 (hl x List.mem_cons_self)
    rw [List.map_cons, readyBurden, timersBurden, if_neg hx, Nat.add_zero,
      ih fun y hy => hl y (List.mem_cons_of_mem _ hy)]

/-- Time moves on to a moment that is the first for which a task waits. -/
theorem Scheduled.elapse?_eq (hs : Scheduled ds g) (he : g.elapse? target = some g') :
    ∃ due, g' = ⟨due, g.ready ++ (g.timers.takeWhile fun t => t.1 ≤ due).map Prod.snd,
        g.timers.dropWhile fun t => t.1 ≤ due⟩ ∧
      (∀ x ∈ g.timers, due ≤ x.1) ∧ g.timers.takeWhile (fun t => t.1 ≤ due) ≠ [] := by
  unfold Agenda.elapse? at he
  split at he
  · cases he
  · next due b l ht =>
    split at he
    · refine ⟨due, (Option.some.inj he).symm, fun x hx => ?_, ?_⟩
      · have hsorted := hs.sorted
        rw [ht] at hx hsorted
        rcases List.mem_cons.1 hx with rfl | hx
        · exact Nat.le_refl _
        · exact (List.pairwise_cons.1 hsorted).1 x hx
      · rw [ht, List.takeWhile_cons_of_pos (by simp)]
        exact List.cons_ne_nil _ _
    · cases he

theorem mem_woken {due : Nat} {x : Nat × Alarm} {l : List (Nat × Alarm)}
    (hx : x ∈ l.takeWhile fun t => t.1 ≤ due) : x ∈ l ∧ x.1 ≤ due :=
  ⟨(List.takeWhile_sublist _).subset hx, by simpa using List.all_eq_true.1 List.all_takeWhile x hx⟩

/-- The tasks of the first moment wake up, the others sleep on. -/
theorem Scheduled.wake {due : Nat} (hs : Scheduled ds g) (hr : g.ready = [])
    (hfirst : ∀ x ∈ g.timers, due ≤ x.1) :
    Scheduled ds ⟨due, g.ready ++ (g.timers.takeWhile fun t => t.1 ≤ due).map Prod.snd,
      g.timers.dropWhile fun t => t.1 ≤ due⟩ where
  pending i a hl := by
    rcases hs.pending i a hl with ha | ha
    · exact .inl (List.mem_append_left _ ha)
    · rw [← List.takeWhile_append_dropWhile (p := fun t => t.1 ≤ due) (l := g.timers)] at ha
      rcases List.mem_append.1 ha with ha | ha
      · exact .inl (List.mem_append_right _ (List.mem_map_of_mem ha))
      · exact .inr ha
  tasks a hm := by
    apply hs.tasks a
    rcases hm with ha | ⟨d, ha⟩
    · rcases List.mem_append.1 ha with ha | ha
      · exact .inl ha
      · obtain ⟨x, hx, rfl⟩ := List.mem_map.1 ha
        exact .inr ⟨x.1, (mem_woken hx).1⟩
    · exact .inr ⟨d, (List.dropWhile_sublist _).subset ha⟩
  ready a ha := by
    rcases List.mem_append.1 ha with ha | ha
    · rw [hr] at ha
      cases ha
    · obtain ⟨x, hx, rfl⟩ := List.mem_map.1 ha
      have hmem := (mem_woken hx).1
      rw [← (hs.timers x hmem).1]
      exact hfirst x hmem
  timers x hx :=
    ⟨(hs.timers x ((List.dropWhile_sublist _).subset hx)).1, lt_of_dropWhile hs.sorted hx⟩
  sorted := hs.sorted.sublist (List.dropWhile_sublist _)

theorem Scheduled.burden_wake {due : Nat} (hs : Scheduled ds g) (hr : g.ready = []) :
    burden ⟨due, g.ready ++ (g.timers.takeWhile fun t => t.1 ≤ due).map Prod.snd,
      g.timers.dropWhile fun t => t.1 ≤ due⟩ = burden g := by
  have hsplit := timersBurden_append (g.timers.takeWhile fun t => t.1 ≤ due)
    (g.timers.dropWhile fun t => t.1 ≤ due)
  rw [List.takeWhile_append_dropWhile] at hsplit
  unfold burden
  dsimp only
  rw [hr, List.nil_append, hsplit, readyBurden, Nat.zero_add, readyBurden_awake]
  intro x hx
  obtain ⟨hmem, hle⟩ := mem_woken hx
  rw [← (hs.timers x hmem).1]
  exact hle

/-- Time moves on to the first moment for which a task waits. -/
theorem Scheduled.elapse (hs : Scheduled ds g) (hr : g.ready = []) (he : g.elapse? target = some g') :
    Scheduled ds g' ∧ burden g' = burden g ∧ g'.ready ≠ [] := by
  obtain ⟨due, rfl, hfirst, hne⟩ := hs.elapse?_eq he
  refine ⟨hs.wake hr hfirst, hs.burden_wake hr, ?_⟩
  intro hnil
  exact hne (List.map_eq_nil_iff.1 (List.append_eq_nil_iff.1 hnil).2)

/-- Where no task waits for a moment so early, the time comes. -/
theorem Scheduled.jump (hs : Scheduled ds g) (hr : g.ready = []) (he : g.elapse? target = none) :
    Scheduled ds { g with now := target } := by
  refine ⟨hs.pending, hs.tasks, fun a ha => ?_, fun x hx => ⟨(hs.timers x hx).1, ?_⟩, hs.sorted⟩
  · rw [hr] at ha
    cases ha
  · show target < x.1
    have hsorted := hs.sorted
    unfold Agenda.elapse? at he
    split at he
    · next ht =>
      rw [ht] at hx
      cases hx
    · next due b l ht =>
      split at he
      · cases he
      · next hlt =>
        rw [ht] at hx hsorted
        rcases List.mem_cons.1 hx with rfl | hx
        · exact Nat.not_le.1 hlt
        · exact Nat.lt_of_lt_of_le (Nat.not_le.1 hlt) ((List.pairwise_cons.1 hsorted).1 x hx)

end
end Aftermath.Countdown
