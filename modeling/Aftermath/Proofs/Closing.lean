import Aftermath.Proofs.Fits

/-! How a session comes to its end. It begins to close with a release of its members, goes on closing
until its frame leaves the stack, and is over from then on. -/

namespace Aftermath

/-- The ending is certain, and the last subscriptions are being cancelled. -/
def Phase.isClosing : Phase → Bool
  | .closing _ | .dropping => true
  | _ => false

/-- The session has been run or given up in the middle. -/
def Phase.isBegun : Phase → Bool
  | .unopened | .configuring | .prepared | .forgone => false
  | _ => true

/-- A session that closes runs, and no hook of it is under way. -/
theorem Fits.of_closing {sid : SessionId} {p : Phase} {r : Option (HookId × Argument)}
    {t : List Frame} (hf : Fits sid p r t) (hp : p.isClosing) : t = [.driving sid] ∧ r = none := by
  unfold Phase.isClosing at hp
  split at hp
  · exact hf.of_passing rfl rfl nofun
  · exact hf.of_passing rfl rfl nofun
  · cases hp

theorem Phase.not_configuring_of_begun {p : Phase} (hp : p.isBegun) : p ≠ .configuring := by
  rintro rfl; cases hp

theorem Phase.isBegun_of_closing {p : Phase} (hp : p.isClosing) : p.isBegun := by
  cases p <;> first | rfl | cases hp

theorem Phase.not_closing_of_over {p : Phase} (hp : p.isOver) : p.isClosing = false := by
  cases p <;> first | rfl | cases hp

theorem Phase.not_closing_of_next {p q : Phase} {k : HookId} {arg : Argument}
    (hn : p.next? = some (k, arg, q)) : p.isClosing = false := by
  unfold next? at hn
  split at hn <;> first | rfl | cases hn

namespace Hub

section
variable {h h' : Hub} {sid : SessionId} {m : Move} {s : SubId} {x y : View}

/-- Who joins a decided session is not active. -/
theorem Turn.members_old (ht : Turn h h' sid x y)
    (hf : Fits sid x.self.phase x.self.running x.thread) (hp : x.self.phase ≠ .configuring)
    (hc : x.self.isSettled) : ∀ s ∈ y.self.members, s ∈ x.self.members ∨ (h'.sub s).isActive = false := by
  cases ht
  case enrols hin =>
    intro s hs
    rcases List.mem_append.1 hs with hs | hs
    · exact .inl hs
    · cases List.mem_singleton.1 hs
      exact .inr (hin hc)
  case subscribes => exact absurd hf.of_configuring.1 hp
  case drives hd => cases hd <;> exact fun s hs => .inl hs
  all_goals exact fun s hs => .inl hs

/-- A session begins to close with a release of its members. -/
theorem Turn.closing (ht : Turn h h' sid x y) (hx : x.self.phase.isClosing = false)
    (hy : y.self.phase.isClosing) :
    h'.Releases sid x.self ∧ y.self.members = x.self.members ∧ y.self.isSettled := by
  cases ht
  case opens | prepares | configured | aborts | acknowledged | refused | unheard | belated =>
    cases hy
  case enters =>
    dsimp only at hx hy
    split at hy
    · cases hy
    · exact absurd (hx.symm.trans hy) nofun
  case drops hr | breaks hr => exact ⟨hr, rfl, Session.isSettled_settled _ _⟩
  case forgets =>
    dsimp only at hy
    split at hy <;> cases hy
  case drives hd =>
    cases hd
    case begins hn =>
      unfold Phase.next? at hn
      split at hn <;> cases hn <;> cases hy
    case resumes | waits | dismisses | stops => exact absurd (hx.symm.trans hy) nofun
    case closes hr => exact ⟨hr, rfl, Session.isSettled_settled _ _⟩
    all_goals cases hy
  all_goals exact absurd (hx.symm.trans hy) nofun

theorem Handles.phase_cases {z : Session} {ks : List HookId} {arg : Argument}
    {e : Ending} (hh : Handles h sid z ks arg e) :
    (∃ r, z.phase = .resolving r) ∨ ∃ p, z.phase = .refused p := by
  cases hh with
  | fired hp _ | timedOut hp _ => exact .inl ⟨_, hp⟩
  | failure hp _ _ =>
    obtain hp | ⟨n, hp, -⟩ := hp
    · exact .inr ⟨_, hp⟩
    · exact .inl ⟨_, hp⟩

theorem Handles.not_closing {z : Session} {ks : List HookId} {arg : Argument} {e : Ending}
    (hh : Handles h sid z ks arg e) : z.phase.isClosing = false := by
  rcases hh.phase_cases with ⟨r, hp⟩ | ⟨p, hp⟩ <;> rw [hp] <;> rfl

theorem Closes.not_closing {z : Session} {e : Ending} (hc : Closes h sid z e) :
    z.phase.isClosing = false := by
  cases hc with
  | unready hp | unawaited hp _ | unheld hp _ _ | unheard hp | deserted hp | handled hp
  | cancelling hp => rw [hp]; rfl
  | unknown hp _ => obtain ⟨e, hp⟩ | hp := hp <;> rw [hp] <;> rfl
  | unhandled hp _ => obtain hp | ⟨n, hp, -⟩ := hp <;> rw [hp] <;> rfl

/-- A session that closes goes on closing until it leaves. -/
theorem Turn.of_closing (ht : Turn h h' sid x y)
    (hf : Fits sid x.self.phase x.self.running x.thread) (hp : x.self.phase.isClosing) :
    y.self.phase = x.self.phase ∧ y.thread = x.thread ∨
      y.self.phase.isOver ∧ y.thread = [] := by
  obtain ⟨hth, hr⟩ := hf.of_closing hp
  cases ht
  case opens => cases hp
  case subscribes | hooks | timeout | configured | enters | aborts | ends | breaks | pauses |
      acknowledged | refused | unheard | belated =>
    cases hth
  case prepares hu _ => rw [show Session.phase _ = .unopened from hu] at hp; cases hp
  case runs x t b hn _ => rw [show t = _ from hth] at hn; cases hn
  case drops x t b hn _ _ | forgets x t b hn _ _ => rw [show t = _ from hth] at hn; cases hn
  case rehooks hn => exact absurd (hr.symm.trans hn) nofun
  case drives hd =>
    cases hd
    case begins hn => exact absurd ((Phase.not_closing_of_next hn).symm.trans hp) nofun
    case handles hh => exact absurd (hh.not_closing.symm.trans hp) nofun
    case closes hc _ => exact absurd (hc.not_closing.symm.trans hp) nofun
    case leaves | vanishes => exact .inr ⟨rfl, (List.cons.inj hth).2⟩
    case dismisses => exact .inl ⟨rfl, rfl⟩
    case stops hq =>
      dsimp only at hp
      generalize Session.phase _ = p at hp hq
      cases p <;> simp_all [Phase.isStill, Phase.isClosing]
    all_goals simp_all [Phase.isClosing]
  all_goals exact .inl ⟨rfl, rfl⟩

/-- A session that was not ready, or is closing, has only its ending before it. -/
theorem Turn.ending_on (ht : Turn h h' sid x y)
    (hf : Fits sid x.self.phase x.self.running x.thread)
    (hx : x.self.phase = .unready ∨ ∃ e, x.self.phase = .closing e) :
    y.beats = x.beats ∧ (y.self.phase = x.self.phase ∨
      (∃ e, Closes h sid x.self e ∧ y.self.phase = .closing e) ∨
      ∃ e, x.self.phase = .closing e ∧ y.self.phase = .ended e) := by
  obtain ⟨hth, hr⟩ : x.thread = [.driving sid] ∧ x.self.running = none := by
    rcases hx with hx | ⟨e, hx⟩ <;> rw [hx] at hf <;> exact hf.of_passing rfl rfl nofun
  cases ht
  case opens => rcases hx with hx | ⟨e, hx⟩ <;> cases hx
  case prepares hu _ =>
    rw [show Session.phase _ = .unopened from hu] at hx
    rcases hx with hx | ⟨e, hx⟩ <;> cases hx
  case subscribes | hooks | timeout | configured | enters | aborts | ends | breaks | pauses |
      acknowledged | refused | unheard | belated => cases hth
  case runs x t b hn _ | drops x t b hn _ _ | forgets x t b hn _ _ =>
    rw [show t = _ from hth] at hn; cases hn
  case rehooks hn => exact nomatch hr.symm.trans hn
  case drives hd =>
    cases hd
    case closes hc _ => exact ⟨rfl, .inr (.inl ⟨_, hc, rfl⟩)⟩
    case leaves hq => exact ⟨rfl, .inr (.inr ⟨_, hq, rfl⟩)⟩
    case waits | dismisses | stops => exact ⟨rfl, .inl rfl⟩
    case begins hn =>
      unfold Phase.next? at hn
      split at hn <;> rcases hx with hx | ⟨e, hx⟩ <;> simp_all
    case handles hh =>
      rcases hh.phase_cases with ⟨r, hq⟩ | ⟨p, hq⟩ <;> rcases hx with hx | ⟨e, hx⟩ <;>
        exact nomatch hx.symm.trans hq
    all_goals rcases hx with hx | ⟨e, hx⟩ <;> simp_all
  all_goals exact ⟨rfl, .inl rfl⟩

/-- A session that has begun is not over before it has closed. -/
theorem Turn.begun (ht : Turn h h' sid x y) (hf : Fits sid x.self.phase x.self.running x.thread)
    (hp : x.self.phase.isBegun) :
    y.self.phase.isBegun ∧ (y.self.phase.isOver → x.self.phase.isOver ∨ x.self.phase.isClosing) := by
  cases ht
  case opens => cases hp
  case prepares hu _ => rw [show Session.phase _ = .unopened from hu] at hp; cases hp
  case configured => rw [hf.of_configuring.1] at hp; cases hp
  case enters =>
    dsimp only
    split
    · exact ⟨rfl, nofun⟩
    · exact ⟨hp, .inl⟩
  case aborts | drops | breaks | acknowledged | refused | unheard | belated => exact ⟨rfl, nofun⟩
  case forgets hn ho hu =>
    rcases hf.of_forgotten hn ho hu with hq | hq <;> rw [show Session.phase _ = _ from hq] at hp <;>
      cases hp
  case drives hd =>
    cases hd
    case begins hn =>
      unfold Phase.next? at hn
      split at hn <;> cases hn <;> exact ⟨rfl, nofun⟩
    case resumes | waits | dismisses | stops => exact ⟨hp, .inl⟩
    case leaves hq | vanishes hq => exact ⟨rfl, fun _ => .inr (by rw [hq]; rfl)⟩
    all_goals exact ⟨rfl, nofun⟩
  all_goals exact ⟨hp, .inl⟩

/-- A session that is over stays so, and nothing more is heard of it. -/
theorem Turn.over (ht : Turn h h' sid x y) (hf : Fits sid x.self.phase x.self.running x.thread)
    (hp : x.self.phase.isOver) : y.self.phase = x.self.phase ∧ y.beats = x.beats := by
  obtain ⟨hth, -⟩ := hf.of_over hp
  cases ht
  case opens => cases hp
  case prepares hu _ => rw [show Session.phase _ = .unopened from hu] at hp; cases hp
  case runs ho => rw [Session.isOver_eq] at ho; exact absurd (ho.symm.trans hp) nofun
  case drops x _ _ _ hu _ =>
    unfold Session.isUnderWay at hu
    dsimp only at hp
    cases hx : x.phase <;> rw [hx] at hu hp <;> contradiction
  case forgets ho _ => rw [Session.isOver_eq] at ho; exact absurd (ho.symm.trans hp) nofun
  case idle | decides | hears | revoked | withdrawn | enrols => exact ⟨rfl, rfl⟩
  all_goals cases hth

end

end Hub
end Aftermath
