import Aftermath.Proofs.Flight

/-! No session waits in vain. Until a session waits none of its subscriptions is lost sight of, and a
session that waits has armed those that are still active. -/

namespace Aftermath

def Phase.isWatching : Phase → Bool
  | .preparing _ | .posting | .acknowledging _ => true
  | _ => false

namespace Hub

/-- What an undecided session can count on from the check of its subscriptions until it waits. -/
structure Watched (h : Hub) (sid : SessionId) : Prop where
  ahead : (h.session sid).claim = none → (h.session sid).phase.isWatching →
    ∀ s ∈ (h.session sid).members, (h.sub s).home = sid → Pending h s
  waits : (h.session sid).claim = none → (h.session sid).phase = .awaiting →
    (∀ s ∈ (h.session sid).members, (h.sub s).home = sid) →
    ∃ s ∈ (h.session sid).members, Pending h s
  armed : (h.session sid).claim = none → (h.session sid).phase = .awaiting →
    ∀ s ∈ (h.session sid).members, (h.sub s).home = sid → (h.sub s).isActive →
    (h.sub s).armed ∧ (h.sub s).countdown.isArmed

section
variable {h h' : Hub} {sid : SessionId} {m : Move} {s : SubId} {x y : View}

theorem Judged.not_cancelled (hj : Judged h sid) (s : SubId) :
    (h.session sid).phase ≠ .resolving (.cancelled s) := by
  intro hp
  unfold Judged at hj
  simp only [hp] at hj
  cases hj.1

/-- An undecided session with a member that is not cancelled has one that is active or half-way. -/
theorem live_of_not_allCancelled (hr : Reachable h) (hn : (h.session sid).claim = none)
    (hown : ∀ s ∈ (h.session sid).members, (h.sub s).home = sid)
    (hall : h.allCancelled sid = false) :
    ∃ s ∈ (h.session sid).members, (h.sub s).isActive ∨ InFlight h s := by
  obtain ⟨y, hy, hst⟩ := List.all_eq_false.1 hall
  obtain ⟨s, hs, rfl⟩ := List.mem_map.1 hy
  refine ⟨s, hs, ?_⟩
  have hgone : ∀ st, st = .fired ∨ st = .timedOut → (h.sub s).state = st → InFlight h s := by
    intro st hst hs'
    rcases hr.claims hst hs' with ⟨f, hf, hfs⟩ | ⟨c, hc, -⟩
    · exact inFlight_iff.2 ⟨f, hf, by cases f <;> first | rfl | cases hfs⟩
    · rw [hown s hs, hn] at hc; cases hc
  cases hx : (h.sub s).state with
  | active => exact .inl (by rw [Subscription.isActive, hx]; rfl)
  | fired => exact .inr (hgone _ (.inl rfl) hx)
  | timedOut => exact .inr (hgone _ (.inr rfl) hx)
  | cancelled => rw [hx] at hst; exact absurd rfl hst

/-- How an undecided session comes to run its first hooks. -/
theorem Turn.watching (ht : Turn h h' sid x y)
    (hf : Fits sid x.self.phase x.self.running x.thread) (hp : y.self.phase.isWatching)
    (hn : y.self.claim = none) :
    x.self.phase.isWatching ∧ (∀ r ∈ x.self.reports, r ∈ y.self.reports) ∨
      x.self.phase = .checking ∧ h.allActive sid ∧ x.self.reports = y.self.reports := by
  cases ht
  case opens | prepares | configured | aborts | drops | breaks | refused | unheard | belated =>
    cases hp
  case decides => cases hn
  case hears => exact .inl ⟨hp, fun r hr => List.mem_append_left _ hr⟩
  case withdrawn => exact absurd hn settled_claim_ne
  case enters x t b _ _ =>
    dsimp only at hp ⊢
    split at hp
    · cases hp
    · exact .inl ⟨hp, fun r hr => hr⟩
  case forgets =>
    dsimp only at hp
    split at hp <;> cases hp
  case acknowledged => exact .inl ⟨by rw [hf.of_posting.2.1]; rfl, fun r hr => hr⟩
  case drives hd =>
    cases hd
    case fails => cases hp
    case skips hs => rw [Session.isSettled, show Session.claim _ = none from hn] at hs; cases hs
    case passes ha hq _ => exact .inr ⟨hq, ha, rfl⟩
    case begins hnx =>
      unfold Phase.next? at hnx
      split at hnx <;> cases hnx
      · next hq => exact .inl ⟨by rw [hq]; rfl, fun r hr => hr⟩
      · next hq => exact .inl ⟨by rw [hq]; rfl, fun r hr => hr⟩
      · cases hp
    case posts hq _ => exact .inl ⟨by rw [hq]; rfl, fun r hr => hr⟩
    case resumes | waits => exact .inl ⟨hp, fun r hr => hr⟩
    case dismisses hq _ _ => rw [show Session.phase _ = .awaiting from hq] at hp; cases hp
    case stops hq => exact .inl ⟨hp, fun r hr => hr⟩
    all_goals cases hp
  all_goals exact .inl ⟨hp, fun r hr => hr⟩

/-- How an undecided session comes to wait. -/
theorem Turn.waiting (ht : Turn h h' sid x y)
    (hres : ∀ s, x.self.phase ≠ .resolving (.cancelled s)) (hp : y.self.phase = .awaiting)
    (hn : y.self.claim = none) :
    x.self.phase = .awaiting ∧ ((∀ r ∈ x.self.reports, r ∈ y.self.reports) ∨
        h.allCancelled sid = false) ∨
      x.self.phase = .acknowledging [] ∧ x.self.members ≠ [] ∧ x.self.reports = y.self.reports ∧
        x.self.members = y.self.members ∧
        ∀ s ∈ x.self.members, (h'.sub s).isActive →
          (h'.sub s).armed ∧ (h'.sub s).countdown.isArmed := by
  cases ht
  case opens | prepares | configured | aborts | drops | breaks | acknowledged | refused | unheard =>
    cases hp
  case decides => cases hn
  case hears => exact .inl ⟨hp, .inl fun r hr => List.mem_append_left _ hr⟩
  case withdrawn => exact absurd hn settled_claim_ne
  case enters x t b _ _ =>
    dsimp only at hp ⊢
    split at hp
    · cases hp
    · exact .inl ⟨hp, .inl fun r hr => hr⟩
  case forgets =>
    dsimp only at hp
    split at hp <;> cases hp
  case belated hs _ => rw [Session.isSettled, show Session.claim _ = none from hn] at hs; cases hs
  case drives hd =>
    cases hd
    case begins hnx =>
      unfold Phase.next? at hnx
      split at hnx <;> cases hnx <;> cases hp
    case decided hs => rw [Session.isSettled, show Session.claim _ = none from hn] at hs; cases hs
    case resumes | waits | stops => exact .inl ⟨hp, .inl fun r hr => hr⟩
    case awaits hq hne harm => exact .inr ⟨hq, hne, rfl, rfl, harm hn⟩
    case dismisses hs =>
      rcases hs with hs | hs
      · rw [Session.isSettled, show Session.claim _ = none from hn] at hs; cases hs
      · exact .inl ⟨hp, .inr hs⟩
    case returns hq => exact absurd hq (hres _)
    all_goals cases hp
  all_goals exact .inl ⟨hp, .inl fun r hr => hr⟩

/-- A subscription that has been armed has a countdown as long as it is active. -/
theorem Shift.stays_armed {v w : SubView} (hs : Shift h h' s v w) (hw : w.self.isActive)
    (hv : v.self.isActive → v.self.armed ∧ v.self.countdown.isArmed)
    (hne : s ≠ h.subs.length) : w.self.armed ∧ w.self.countdown.isArmed := by
  cases hs
  case born he _ _ _ => exact absurd he hne
  case bornLate | loses | declined => cases hw
  case rearmed ha _ => exact ⟨ha, rfl⟩
  case armed hdue _ => exact ⟨rfl, by rw [Countdown.isArmed, hdue hw]; rfl⟩
  case leaves hl _ => cases hl <;> cases hw
  case rings hn _ => exact absurd (hn.symm.trans hw) Bool.false_ne_true
  all_goals exact hv hw

/-- The subscriptions of a configured session stay as they are known. -/
theorem own_member (ha : Reachable h) (hm : Moved h m h')
    (hp : (h.session sid).phase ≠ .configuring) (hs : s ∈ (h'.session sid).members)
    (hh : (h'.sub s).home = sid) : s ∈ (h.session sid).members ∧ (h.sub s).home = sid := by
  have hlt := (wired_move ha.wired hm).members sid s hs
  obtain ⟨hs, hh⟩ := own_move ha hm hp hlt hh
  exact ⟨hh ▸ ha.wired.own s hs, hh⟩

theorem not_configuring_of_watching {p : Phase} (hp : p.isWatching) : p ≠ .configuring := by
  rintro rfl; cases hp

theorem ahead_move (ha : Reachable h) (hm : Moved h m h') (hw : Watched h sid)
    (hn : (h'.session sid).claim = none) (hp : (h'.session sid).phase.isWatching)
    (hs : s ∈ (h'.session sid).members) (hh : (h'.sub s).home = sid) : Pending h' s := by
  have hlt := ha.wired.members sid s
  have hold := claim_none ha hm hn
  rcases (move_turn ha.wired hm sid).watching (ha.fits sid) hp hn with ⟨hpw, hr⟩ | ⟨hpc, hall, hr⟩
  · have hne := not_configuring_of_watching hpw
    obtain ⟨hs, hh⟩ := own_member ha hm hne hs hh
    subst hh
    exact pending_move ha hm (hlt hs) hne hn hr (hw.ahead hold hpw s hs rfl)
  · have hne : (h.session sid).phase ≠ .configuring := by
      rw [show (h.session sid).phase = .checking from hpc]; nofun
    obtain ⟨hs, hh⟩ := own_member ha hm hne hs hh
    subst hh
    exact pending_of_live ha hm (hlt hs) hne hn
      (.inl (List.all_eq_true.1 hall _ (List.mem_map_of_mem hs)))

theorem waits_move (ha : Reachable h) (hm : Moved h m h') (hw : Watched h sid)
    (hn : (h'.session sid).claim = none) (hp : (h'.session sid).phase = .awaiting)
    (hown : ∀ s ∈ (h'.session sid).members, (h'.sub s).home = sid) :
    ∃ s ∈ (h'.session sid).members, Pending h' s := by
  have hlt : ∀ {s}, s ∈ (h.session sid).members → s < h.subs.length := ha.wired.members sid _
  have hold := claim_none ha hm hn
  have hown : ∀ s ∈ (h.session sid).members, (h.sub s).home = sid := fun s hs =>
    (sub_fixed ha.wired hm (hlt hs)).1.symm.trans (hown s (members_move ha hm hs))
  rcases (move_turn ha.wired hm sid).waiting (ha.judged sid).not_cancelled hp hn with
    ⟨hpa, hr⟩ | ⟨hpa, hne, hr, hmem, -⟩
  · have hnc : (h.session sid).phase ≠ .configuring := by
      rw [show (h.session sid).phase = .awaiting from hpa]; nofun
    rcases hr with hr | hall
    · obtain ⟨s, hs, hpen⟩ := hw.waits hold hpa hown
      have hh := hown s hs
      subst hh
      exact ⟨s, members_move ha hm hs, pending_move ha hm (hlt hs) hnc hn hr hpen⟩
    · obtain ⟨s, hs, hlive⟩ := live_of_not_allCancelled ha hold hown hall
      have hh := hown s hs
      subst hh
      exact ⟨s, members_move ha hm hs, pending_of_live ha hm (hlt hs) hnc hn hlive⟩
  · have hnc : (h.session sid).phase ≠ .configuring := by
      rw [show (h.session sid).phase = .acknowledging [] from hpa]; nofun
    obtain ⟨s, hs⟩ := List.exists_mem_of_ne_nil _ hne
    have hh := hown s hs
    subst hh
    refine ⟨s, members_move ha hm hs, pending_move ha hm (hlt hs) hnc hn (fun r h => hr ▸ h) ?_⟩
    exact hw.ahead hold (by rw [show (h.session _).phase = .acknowledging [] from hpa]; rfl) s hs rfl

theorem armed_move (ha : Reachable h) (hm : Moved h m h') (hw : Watched h sid)
    (hn : (h'.session sid).claim = none) (hp : (h'.session sid).phase = .awaiting)
    (hs : s ∈ (h'.session sid).members) (hh : (h'.sub s).home = sid) (hact : (h'.sub s).isActive) :
    (h'.sub s).armed ∧ (h'.sub s).countdown.isArmed := by
  have hold := claim_none ha hm hn
  rcases (move_turn ha.wired hm sid).waiting (ha.judged sid).not_cancelled hp hn with
    ⟨hpa, -⟩ | ⟨hpa, -, -, hmem, harm⟩
  · have hnc : (h.session sid).phase ≠ .configuring := by
      rw [show (h.session sid).phase = .awaiting from hpa]; nofun
    obtain ⟨hs, hh⟩ := own_member ha hm hnc hs hh
    have hlt := ha.wired.members sid s hs
    refine (move_shift ha.wired hm s).stays_armed hact (fun hact => ?_) (Nat.ne_of_lt hlt)
    exact hw.armed hold hpa s hs hh hact
  · exact harm s (by rw [hmem]; exact hs) hact

theorem watched_move (ha : Reachable h) (hm : Moved h m h') (hw : Watched h sid) :
    Watched h' sid where
  ahead hn hp _ := ahead_move ha hm hw hn hp
  waits hn hp := waits_move ha hm hw hn hp
  armed hn hp _ := armed_move ha hm hw hn hp

theorem Reachable.watched (hr : Reachable h) (sid : SessionId) : Watched h sid := by
  induction hr using Reachable.induct with
  | init settings => exact ⟨nofun, nofun, nofun⟩
  | move a b m ha hm ih => exact watched_move ha (moved_of_move? hm) ih

/-- A session whose subscriptions are its own never waits in vain. Where it waits with no report to
take and is not cancelled, it is undecided, and one of its subscriptions is active with its
countdown running, or is half-way out of `active` and reports next. -/
theorem no_session_waits_in_vain (hr : Reachable h) (hp : (h.session sid).phase = .awaiting)
    (he : (h.session sid).reports = []) (hc : (h.session sid).cancelled = false)
    (hown : ∀ s ∈ (h.session sid).members, (h.sub s).home = sid) :
    (h.session sid).claim = none ∧ ∃ s ∈ (h.session sid).members,
      (h.sub s).isActive ∧ (h.sub s).countdown.isArmed ∨ InFlight h s := by
  have hn : (h.session sid).claim = none := by
    have ho := (hr.judged sid).open (by rw [hp]; rfl)
    cases hcl : (h.session sid).claim with
    | none => rfl
    | some c =>
      rcases ho.claim c hcl with hrep | ⟨-, hx⟩
      · have hd := ho.pending
        rw [Session.pending, he, hcl, Option.filter_some, if_pos hrep] at hd
        cases hd
      · rw [hc] at hx; cases hx
  refine ⟨hn, ?_⟩
  have hw := hr.watched sid
  rcases hw.waits hn hp hown with ⟨s, hs, hact | hf | hrep⟩
  · exact ⟨s, hs, .inl ⟨hact, (hw.armed hn hp s hs (hown s hs) hact).2⟩⟩
  · exact ⟨s, hs, .inr hf⟩
  · rw [hown s hs, he] at hrep; cases hrep

end

theorem one_waits : ∃ h, Reachable h ∧ (h.session 0).phase = .awaiting ∧ h.thread 0 = [] ∧
    (h.session 0).claim = none ∧ ∃ s ∈ (h.session 0).members,
      (h.sub s).isActive ∧ (h.sub s).countdown.isArmed ∨ InFlight h s := by
  obtain ⟨h, hr, hp, ht, he, hc, hown⟩ := Reachable.exists_of_run {} (oneWaits 0 .event)
    (fun h => (h.session 0).phase = .awaiting ∧ h.thread 0 = [] ∧ (h.session 0).reports = [] ∧
      (h.session 0).cancelled = false ∧ ∀ s ∈ (h.session 0).members, (h.sub s).home = 0) (by decide)
  exact ⟨h, hr, hp, ht, no_session_waits_in_vain hr hp he hc hown⟩

/-- An event has reached the only subscription, and the transport has not yet taken the lease back. -/
def oneHalfWay : List Move := oneWaits 0 .event ++ [.deliver 0 ⟨default, .blank⟩]

/-- Half-way out of `active` nothing of a session that waits is active. -/
theorem waits_half_way : ¬ ∀ (h : Hub) (sid : SessionId), Reachable h →
    (h.session sid).phase = .awaiting → h.thread sid = [] → (h.session sid).reports = [] →
    (h.session sid).cancelled = false → (∀ s ∈ (h.session sid).members, (h.sub s).home = sid) →
    (h.session sid).claim = none ∧ ∃ s ∈ (h.session sid).members,
      (h.sub s).isActive ∧ (h.sub s).countdown.isArmed := by
  intro hall
  obtain ⟨h, hr, hp, ht, he, hc, hown, hno⟩ := Reachable.exists_of_run {} oneHalfWay
    (fun h => (h.session 0).phase = .awaiting ∧ h.thread 0 = [] ∧ (h.session 0).reports = [] ∧
      (h.session 0).cancelled = false ∧ (∀ s ∈ (h.session 0).members, (h.sub s).home = 0) ∧
      ∀ s ∈ (h.session 0).members, (h.sub s).isActive = false) (by decide)
  obtain ⟨-, s, hs, hact, -⟩ := hall h 0 hr hp ht he hc hown
  exact absurd ((hno s hs).symm.trans hact) Bool.false_ne_true

end Hub
end Aftermath
