import Aftermath.Proofs.Wired

/-! The frames of a session fit its phase. A session that rests has none; one that runs has its own
frame, under the hook or the post it waits for; while it is configured, its configuration is on
top. -/

namespace Aftermath

def Phase.isHooking : Phase → Bool
  | .preparing _ | .acknowledging _ | .handling _ _ _ => true
  | _ => false

/-- A phase in which a session may rest between two runs, no hook of it under way. -/
def Phase.isResting : Phase → Bool
  | .unopened | .prepared | .posting | .awaiting | .ended _ | .dropped | .forgone => true
  | _ => false

def Phase.isOver : Phase → Bool
  | .ended _ | .dropped | .forgone => true
  | _ => false

def Phase.isAlive : Phase → Bool
  | .unopened | .ended _ | .dropped | .forgone => false
  | _ => true

/-- The frames that a session in a phase may have, with the hook that has begun and not ended. -/
inductive Fits (sid : SessionId) :
    Phase → Option (HookId × Argument) → List Frame → Prop where
  | rests {p} : p.isResting → Fits sid p none []
  | pauses {p q} : p.isHooking → Fits sid p (some q) []
  | enters {p} : p.isResting → p.isOver = false → Fits sid p none [.entering sid]
  | returns {p q} : p.isHooking → Fits sid p (some q) [.entering sid]
  | configures : Fits sid .configuring none [.configuring sid]
  | opens : Fits sid .configuring none [.configuring sid, .entering sid]
  | drives {p} : p.isStill = false → Fits sid p none [.driving sid]
  | resumes {p q} : p.isHooking → Fits sid p (some q) [.driving sid]
  | hooks {p k arg} : p.isHooking → Fits sid p (some (k, arg)) [.hook sid k arg, .driving sid]
  | posts : Fits sid .posting none [.posting sid, .driving sid]

section
variable {sid : SessionId} {p : Phase} {r : Option (HookId × Argument)} {t : List Frame}

theorem Phase.not_still_of_hooking (hp : p.isHooking) : p.isStill = false := by
  cases p <;> first | rfl | cases hp

theorem Phase.not_over_of_hooking (hp : p.isHooking) : p.isOver = false := by
  cases p <;> first | rfl | cases hp

theorem Phase.isResting_of_over (hp : p.isOver) : p.isResting := by
  cases p <;> first | rfl | cases hp

theorem Phase.not_still_of_resting (hp : p.isResting) (ho : p.isOver = false) (hu : p ≠ .unopened)
    (hpr : p ≠ .prepared) : p.isStill = false := by
  cases p <;> simp_all [isStill, isOver, isResting]

theorem Fits.of_configuring (hf : Fits sid p r (.configuring sid :: t)) :
    p = .configuring ∧ r = none ∧ (t = [] ∨ t = [.entering sid]) := by
  cases hf with
  | configures => exact ⟨rfl, rfl, .inl rfl⟩
  | opens => exact ⟨rfl, rfl, .inr rfl⟩

theorem Fits.of_entering (hf : Fits sid p r (.entering sid :: t)) :
    t = [] ∧ p.isOver = false ∧ (r = none ∧ p.isResting ∨ r.isSome ∧ p.isHooking) := by
  cases hf with
  | enters hp ho => exact ⟨rfl, ho, .inl ⟨rfl, hp⟩⟩
  | returns hp => exact ⟨rfl, Phase.not_over_of_hooking hp, .inr ⟨rfl, hp⟩⟩

theorem Fits.of_driving (hf : Fits sid p r (.driving sid :: t)) :
    t = [] ∧ p.isStill = false ∧ (r.isSome → p.isHooking) := by
  cases hf with
  | drives hp => exact ⟨rfl, hp, nofun⟩
  | resumes hp => exact ⟨rfl, Phase.not_still_of_hooking hp, fun _ => hp⟩

theorem Fits.of_hook {k : HookId} {arg : Argument} (hf : Fits sid p r (.hook sid k arg :: t)) :
    t = [.driving sid] ∧ p.isHooking ∧ r = some (k, arg) := by
  cases hf with
  | hooks hp => exact ⟨rfl, hp, rfl⟩

theorem Fits.of_posting (hf : Fits sid p r (.posting sid :: t)) :
    t = [.driving sid] ∧ p = .posting ∧ r = none := by
  cases hf with
  | posts => exact ⟨rfl, rfl, rfl⟩

/-- A session that waits for a hook or a post may be suspended. -/
theorem Fits.of_waiting {f : Frame} (hf : Fits sid p r (f :: .driving sid :: t)) :
    t = [] ∧ (r.isSome ∧ p.isHooking ∨ r = none ∧ p = .posting) := by
  cases hf with
  | hooks hp => exact ⟨rfl, .inl ⟨rfl, hp⟩⟩
  | posts => exact ⟨rfl, .inr ⟨rfl, rfl⟩⟩

/-- A session that does not run has no frames. -/
theorem Fits.of_idle (hf : Fits sid p r t) (ht : t.any Frame.isRun = false) :
    t = [] ∧ (r = none ∧ p.isResting ∨ r.isSome ∧ p.isHooking) := by
  cases hf with
  | rests hp => exact ⟨rfl, .inl ⟨rfl, hp⟩⟩
  | pauses hp => exact ⟨rfl, .inr ⟨rfl, hp⟩⟩
  | _ => simp [Frame.isRun] at ht

/-- In a phase in which a session neither rests nor waits for anybody it runs. -/
theorem Fits.of_passing (hf : Fits sid p r t) (hr : p.isResting = false) (hh : p.isHooking = false)
    (hc : p ≠ .configuring) : t = [.driving sid] ∧ r = none := by
  cases hf with
  | drives _ => exact ⟨rfl, rfl⟩
  | rests hp | enters hp _ => exact absurd (hr.symm.trans hp) Bool.false_ne_true
  | pauses hp | returns hp | resumes hp | hooks hp =>
    exact absurd (hh.symm.trans hp) Bool.false_ne_true
  | configures | opens => exact absurd rfl hc
  | posts => cases hr

/-- A session that has come to its end has no frames. -/
theorem Fits.of_over (hf : Fits sid p r t) (hp : p.isOver) : t = [] ∧ r = none := by
  cases hf with
  | rests _ => exact ⟨rfl, rfl⟩
  | enters _ ho => rw [hp] at ho; cases ho
  | drives ho => cases p <;> simp_all [Phase.isStill, Phase.isOver]
  | pauses ho | returns ho | resumes ho | hooks ho =>
    rw [Phase.not_over_of_hooking ho] at hp; cases hp
  | configures | opens | posts => cases hp

/-! ### What the frames become -/

/-- A session is opened by its surroundings, or by its own first run. -/
theorem Fits.prepare (hf : Fits sid .unopened r t)
    (ht : t.any Frame.isRun = false ∨ ∃ u, t = .entering sid :: u) :
    Fits sid .configuring r (.configuring sid :: t) := by
  rcases ht with ht | ⟨u, rfl⟩
  · rcases hf.of_idle ht with ⟨rfl, ⟨rfl, -⟩ | ⟨-, hk⟩⟩
    · exact .configures
    · cases hk
  · rcases hf.of_entering with ⟨rfl, -, ⟨rfl, -⟩ | ⟨-, hk⟩⟩
    · exact .opens
    · cases hk

theorem Fits.prepared (hf : Fits sid p r (.configuring sid :: t)) : Fits sid .prepared r t := by
  obtain ⟨-, rfl, rfl | rfl⟩ := hf.of_configuring
  · exact .rests rfl
  · exact .enters rfl rfl

theorem Fits.run (hf : Fits sid p r t) (ht : t.any Frame.isRun = false) (ho : p.isOver = false) :
    Fits sid p r (.entering sid :: t) := by
  rcases hf.of_idle ht with ⟨rfl, ⟨rfl, hp⟩ | ⟨hr, hp⟩⟩
  · exact .enters hp ho
  · obtain ⟨q, rfl⟩ := Option.isSome_iff_exists.1 hr
    exact .returns hp

theorem Fits.enter (hf : Fits sid p r (.entering sid :: t)) (hu : p ≠ .unopened) :
    Fits sid (if p = .prepared then .checking else p) r (.driving sid :: t) := by
  rcases hf.of_entering with ⟨rfl, ho, ⟨rfl, hp⟩ | ⟨hr, hp⟩⟩
  · split
    · exact .drives rfl
    · next hpr => exact .drives (Phase.not_still_of_resting hp ho hu hpr)
  · obtain ⟨q, rfl⟩ := Option.isSome_iff_exists.1 hr
    rw [if_neg (by rintro rfl; cases hp)]
    exact .resumes hp

/-- A session that is given up with no hook under way has no frames. -/
theorem Fits.forget (hf : Fits sid p r t) (ht : t.any Frame.isRun = false) (hh : p.isHooking = false) :
    Fits sid (if p = .unopened then .forgone else .dropped) r t := by
  rcases hf.of_idle ht with ⟨rfl, ⟨rfl, -⟩ | ⟨-, hp⟩⟩
  · exact .rests (by split <;> rfl)
  · rw [hp] at hh; cases hh

/-- Whatever a session waits for, it may be left waiting. -/
theorem Fits.pause {f : Frame} (hf : Fits sid p r (f :: .driving sid :: t)) : Fits sid p r t := by
  rcases hf.of_waiting with ⟨rfl, ⟨hr, hp⟩ | ⟨rfl, rfl⟩⟩
  · obtain ⟨q, rfl⟩ := Option.isSome_iff_exists.1 hr
    exact .pauses hp
  · exact .rests rfl

theorem Fits.answer (hf : Fits sid p r (.posting sid :: t)) {q : Phase} (hq : q.isStill = false) :
    Fits sid q r t := by
  obtain ⟨rfl, -, rfl⟩ := hf.of_posting
  exact .drives hq

end

theorem Session.isOver_eq (x : Session) : x.isOver = x.phase.isOver := by
  unfold Session.isOver Phase.isOver
  cases x.phase <;> rfl

theorem Session.isUnderWay_of_hooking {x : Session} (hp : x.phase.isHooking) : x.isUnderWay := by
  unfold Session.isUnderWay
  unfold Phase.isHooking at hp
  split <;> simp_all

/-- A session that is not under way and can be given up is new, or has only been configured. -/
theorem Fits.of_forgotten {x : Session} {sid : SessionId} {t : List Frame}
    (hf : Fits sid x.phase x.running t) (ht : t.any Frame.isRun = false) (ho : x.isOver = false)
    (hu : x.isUnderWay = false) : x.phase = .unopened ∨ x.phase = .prepared := by
  rcases (hf.of_idle ht).2 with ⟨-, hp⟩ | ⟨-, hp⟩
  · rw [Session.isOver_eq] at ho
    unfold Session.isUnderWay at hu
    cases hx : x.phase <;> rw [hx] at hp ho hu <;> first | exact .inl rfl | exact .inr rfl | contradiction
  · exact absurd (hu.symm.trans (Session.isUnderWay_of_hooking hp)) Bool.false_ne_true

theorem Session.isAlive_of_underWay {x : Session} (hu : x.isUnderWay) : x.phase.isAlive := by
  unfold Session.isUnderWay at hu
  unfold Phase.isAlive
  split <;> simp_all

theorem Phase.isAlive_of_not_still {p : Phase} (hp : p.isStill = false) : p.isAlive := by
  cases p <;> simp_all [isStill, isAlive]

theorem Phase.isHooking_of_next {p q : Phase} {k : HookId} {arg : Argument}
    (hn : p.next? = some (k, arg, q)) : q.isHooking := by
  unfold next? at hn
  split at hn <;> cases hn <;> rfl

namespace Hub

section
variable {h h' : Hub} {sid : SessionId} {x y : View}

theorem Drives.fits {x : Session} {b : List Beat}
    (hd : Drives h h' sid ⟨x, [.driving sid], b⟩ y) (hr : x.running = none)
    (hp : x.phase.isStill = false) : Fits sid y.self.phase y.self.running y.thread := by
  cases hd
  case begins hn => exact .hooks (Phase.isHooking_of_next hn)
  case posts => dsimp only; rw [hr]; exact .posts
  case resumes hph => dsimp only; rw [hr, hph]; exact .posts
  case waits hph _ => dsimp only; rw [hr, hph]; exact .rests rfl
  case leaves | vanishes => dsimp only; rw [hr]; exact .rests rfl
  case stops hph => rw [hp] at hph; cases hph
  all_goals
    simp only [Session.settled]
    rw [hr]
    exact .drives (by first | rfl | exact hp)

/-- Every turn keeps the frames of a session in step with its phase. -/
theorem Turn.fits (ht : Turn h h' sid x y) (hf : Fits sid x.self.phase x.self.running x.thread) :
    Fits sid y.self.phase y.self.running y.thread := by
  cases ht
  case prepares hp ht => exact Fits.prepare (hp ▸ hf) ht
  case configured => exact hf.prepared
  case runs ht ho => exact hf.run ht ((Session.isOver_eq _).symm.trans ho)
  case enters hu _ => exact hf.enter hu
  case aborts =>
    obtain ⟨rfl, -⟩ := hf.of_entering
    exact .drives rfl
  case drops ht _ _ =>
    obtain ⟨rfl, -⟩ := hf.of_idle ht
    exact .drives rfl
  case forgets x t b ht _ hu =>
    refine hf.forget ht (Bool.eq_false_iff.2 fun hh => ?_)
    rw [Session.isUnderWay_of_hooking hh] at hu
    cases hu
  case rehooks hr =>
    obtain ⟨rfl, -, hk⟩ := hf.of_driving
    dsimp only at hr hk ⊢
    rw [hr] at hk ⊢
    exact .hooks (hk rfl)
  case drives hr hd =>
    obtain ⟨rfl, hp, -⟩ := hf.of_driving
    exact hd.fits hr hp
  case ends =>
    obtain ⟨rfl, hp, -⟩ := hf.of_hook
    exact .drives (Phase.not_still_of_hooking hp)
  case breaks =>
    obtain ⟨rfl, -⟩ := hf.of_hook
    exact .drives rfl
  case pauses => exact hf.pause
  case acknowledged | refused | unheard | belated => exact hf.answer rfl
  all_goals exact hf

/-- The frames of every session fit its phase. -/
theorem Reachable.fits (hr : Reachable h) (sid : SessionId) :
    Fits sid (h.session sid).phase (h.session sid).running (h.thread sid) := by
  induction hr using Reachable.induct with
  | init settings => exact .rests rfl
  | move a b m ha hm ih => exact (move_turn ha.wired (moved_of_move? hm) sid).fits ih

/-! ### Holders -/

/-- A session that is alive was so before and has kept its holders, or a new subscription is one more,
or it has just been opened. -/
theorem Turn.holders_cases (ht : Turn h h' sid x y)
    (hf : Fits sid x.self.phase x.self.running x.thread) (hy : y.self.phase.isAlive) :
    x.self.phase.isAlive ∧ (y.self.holders = x.self.holders ∨
      y.self.holders = x.self.holders + 1 ∧ h.subs.length < h'.subs.length) ∨
    x.self.phase = .unopened ∧ y.self.holders = 1 := by
  cases ht
  case subscribes hlen => exact .inl ⟨hy, .inr ⟨rfl, hlen⟩⟩
  case opens => cases hy
  case prepares hp _ => exact .inr ⟨hp, rfl⟩
  case configured =>
    obtain ⟨hp, -⟩ := hf.of_configuring
    exact .inl ⟨by rw [hp]; rfl, .inl rfl⟩
  case enters x t b hu _ | aborts x t b hu _ =>
    obtain ⟨-, ho, -⟩ := hf.of_entering
    refine .inl ⟨?_, .inl rfl⟩
    dsimp only at ho ⊢
    revert hu ho
    cases x.phase <;> simp [Phase.isOver, Phase.isAlive]
  case drops hu _ => exact .inl ⟨Session.isAlive_of_underWay hu, .inl rfl⟩
  case forgets =>
    dsimp only at hy
    split at hy <;> cases hy
  case drives hr hd =>
    obtain ⟨-, hp, -⟩ := hf.of_driving
    have ha := Phase.isAlive_of_not_still hp
    cases hd
    case leaves | vanishes => cases hy
    all_goals exact .inl ⟨ha, .inl rfl⟩
  case breaks =>
    obtain ⟨-, hp, -⟩ := hf.of_hook
    exact .inl ⟨Phase.isAlive_of_not_still (Phase.not_still_of_hooking hp), .inl rfl⟩
  case acknowledged | refused | unheard | belated =>
    obtain ⟨-, hp, -⟩ := hf.of_posting
    exact .inl ⟨by rw [hp]; rfl, .inl rfl⟩
  all_goals exact .inl ⟨hy, .inl rfl⟩

theorem Turn.held (ht : Turn h h' sid x y) (hf : Fits sid x.self.phase x.self.running x.thread)
    (hh : x.self.phase.isAlive → x.self.holders ≠ 0) (hy : y.self.phase.isAlive) :
    y.self.holders ≠ 0 := by
  rcases ht.holders_cases hf hy with ⟨ha, he | ⟨he, -⟩⟩ | ⟨-, he⟩
  · rw [he]; exact hh ha
  · rw [he]; exact Nat.succ_ne_zero _
  · rw [he]; exact Nat.one_ne_zero

/-- A session that is alive holds its own channel open. -/
theorem Reachable.held (hr : Reachable h) (sid : SessionId) :
    (h.session sid).phase.isAlive → (h.session sid).holders ≠ 0 := by
  induction hr using Reachable.induct with
  | init settings => nofun
  | move a b m ha hm ih =>
    exact (move_turn ha.wired (moved_of_move? hm) sid).held (ha.fits sid) ih

end
end Hub
end Aftermath
