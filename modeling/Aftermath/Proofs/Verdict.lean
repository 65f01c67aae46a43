import Aftermath.Proofs.Verdict.Claims

/-! The first claim decides a session, and its ending follows from that claim. Up to the await a
session holds the report of a claim exactly as long as nobody has acted on it; from there on each
phase knows the claim it has come from. -/

namespace Aftermath

/-- A phase in which reports are waited for. -/
def Phase.isOpen : Phase → Bool
  | .configuring | .prepared | .checking | .preparing _ | .posting | .acknowledging _
  | .awaiting => true
  | _ => false

def Phase.ending? : Phase → Option Ending
  | .handling _ _ e | .closing e | .ended e => some e
  | _ => none

namespace Hub

/-- What each phase knows of the claim. -/
def Judged (h : Hub) (sid : SessionId) : Prop :=
  let x := h.session sid
  match x.phase with
  | .unopened => x.claim = none ∧ x.reports = [] ∧ x.members = []
  | .configuring | .prepared | .checking | .preparing _ | .posting | .awaiting => x.Open
  | .acknowledging _ => x.Open ∧ .acknowledged ∈ h.beats sid
  | .unready => x.claim = some .unready
  | .resolving r => r.claim?.isSome ∧ x.claim = r.claim?
  | .refused e => x.claim = some (.refused e)
  | .unheard e => (x.hooks.forError e).1 = [] ∧ .refused e ∈ h.beats sid ∧
      ∃ c, x.claim = some c ∧ (c.isReported ∨ x.cancelled)
  | .deserted => x.claim = some .deserted
  | .cancelling => x.cancelled
  | .handling _ _ e | .closing e | .ended e => Settles h sid e
  | .dropping | .dropped | .forgone => True

theorem Judged.open {h : Hub} {sid : SessionId} (hj : Judged h sid)
    (hp : (h.session sid).phase.isOpen) : (h.session sid).Open := by
  unfold Judged at hj
  dsimp only at hj
  split at hj
  case h_2 | h_3 | h_4 | h_5 | h_6 | h_7 => exact hj
  case h_8 => exact hj.1
  all_goals
    next hq => rw [hq] at hp; cases hp

theorem judged_of_open (h : Hub) (sid : SessionId) (ho : (h.session sid).Open)
    (hp : (h.session sid).phase.isOpen)
    (hb : ∀ ks, (h.session sid).phase = .acknowledging ks → .acknowledged ∈ h.beats sid) :
    Judged h sid := by
  unfold Judged
  dsimp only
  split
  case h_2 | h_3 | h_4 | h_5 | h_6 | h_7 => exact ho
  case h_8 hq => exact ⟨ho, hb _ hq⟩
  all_goals
    next hq => rw [hq] at hp; cases hp

section
variable {h h' : Hub} {sid : SessionId} {m : Move} {x y : Session} {t : List Frame} {b : List Beat}

theorem judged_iff_blank (hp : (h.session sid).phase = .unopened) : Judged h sid ↔
    (h.session sid).claim = none ∧ (h.session sid).reports = [] ∧ (h.session sid).members = [] := by
  unfold Judged
  simp only [hp]

theorem judged_iff_settles {e : Ending} (hp : (h.session sid).phase.ending? = some e) :
    Judged h sid ↔ Settles h sid e := by
  unfold Phase.ending? at hp
  split at hp
  case h_4 => cases hp
  all_goals
    next hq =>
      cases hp
      unfold Judged
      simp only [hq]

theorem Judged.acknowledged (hj : Judged h sid) {ks : List HookId}
    (hp : (h.session sid).phase = .acknowledging ks) : .acknowledged ∈ h.beats sid := by
  unfold Judged at hj
  simp only [hp] at hj
  exact hj.2

/-- A phase that lasts knows what it knew, if an open session stays open. -/
theorem judged_same (sid : SessionId) (ha : Reachable h) (hm : Moved h m h')
    (hp : (h'.session sid).phase = (h.session sid).phase) (hu : (h.session sid).phase ≠ .unopened)
    (ho : (h.session sid).Open → (h'.session sid).Open) (hj : Judged h sid) : Judged h' sid := by
  have hk : (h.session sid).phase ≠ .configuring →
      (h'.session sid).hooks = (h.session sid).hooks := hooks_move ha hm
  have hc := cancelled_move ha hm hu
  unfold Judged at hj ⊢
  dsimp only at hj ⊢
  rw [hp]
  split at hj
  case h_1 hq => exact absurd hq hu
  case h_8 => exact ⟨ho hj.1, (beats_move ha hm sid).subset hj.2⟩
  case h_9 | h_11 | h_13 => exact claim_move ha hm hj
  case h_10 r _ =>
    obtain ⟨hr, hx⟩ := hj
    obtain ⟨c, hrc⟩ := Option.isSome_iff_exists.1 hr
    exact ⟨hr, hrc ▸ claim_move ha hm (hx.trans hrc)⟩
  case h_12 hq =>
    obtain ⟨he, hb, c, hx, hd⟩ := hj
    rw [hk (by rw [hq]; nofun)]
    exact ⟨he, (beats_move ha hm sid).subset hb, c, claim_move ha hm hx, hd.imp id hc⟩
  case h_14 => exact hc hj
  case h_15 hq | h_16 hq | h_17 hq => exact hj.move ha hm (by rw [hq]; nofun) hu
  all_goals first | exact ho hj | exact hj

theorem not_mem_of_unopened (ha : Reachable h) (hj : Judged h sid)
    (hu : (h.session sid).phase = .unopened) {s : SubId} (hs : s < h.subs.length)
    (hh : (h.sub s).home = sid) : False := by
  have hm := ha.wired.own s hs
  rw [hh, ((judged_iff_blank hu).1 hj).2.2] at hm
  cases hm

/-- A session that has just been opened knows of no claim. -/
theorem judged_prepares (hc : x.claim = none) (hr : x.reports = []) {c : Bool}
    (hx' : h'.session sid = { x with cancelled := c, holders := 1, phase := .configuring }) :
    Judged h' sid := by
  refine judged_of_open h' sid (hx' ▸ ⟨?_, fun d hd => ?_⟩) (by rw [hx']; rfl)
    fun ks hq => by rw [hx'] at hq; cases hq
  · show x.reports.filterMap _ = _
    rw [hr, hc]
    rfl
  · cases hc.symm.trans hd

/-- A session that has not been opened hears of nothing. -/
theorem judged_unopened (ha : Reachable h) (hm : Moved h m h') (hj : Judged h sid)
    (hu : (h.session sid).phase = .unopened) : Judged h' sid := by
  have ht := move_turn ha.wired hm sid
  have hf := ha.fits sid
  have hq : ∀ {s}, s < h.subs.length → (h.sub s).home ≠ sid := fun hs hh =>
    not_mem_of_unopened ha hj hu hs hh
  obtain ⟨hc, hr, hmem⟩ := (judged_iff_blank hu).1 hj
  generalize hv : h.view sid = v at ht
  generalize hv' : h'.view sid = w at ht
  have hx : h.session sid = v.self := congrArg View.self hv
  have hth : h.thread sid = v.thread := congrArg View.thread hv
  have hx' : h'.session sid = w.self := congrArg View.self hv'
  rw [hx] at hu hc hr hmem hf
  rw [hth, hu] at hf
  have blank : (h'.session sid).phase = .unopened → _ := judged_iff_blank
  rw [hx'] at blank
  cases ht
  case idle | revoked | runs | rehooks | pauses => exact (blank hu).2 ⟨hc, hr, hmem⟩
  case opens => exact (blank rfl).2 ⟨rfl, rfl, rfl⟩
  case decides hd _ _ =>
    obtain ⟨s, hs, hh⟩ := hd.home ha.wired
    exact absurd hh (hq hs)
  case hears hs hh => exact absurd hh (hq hs)
  case withdrawn hn _ | enters hn _ | aborts hn _ => exact absurd hu hn
  case enrols hn _ _ => exact absurd hu hn
  case subscribes | hooks | timeout | configured => cases hf.of_configuring.1
  case prepares => exact judged_prepares hc hr hx'
  case drops hund _ =>
    unfold Session.isUnderWay at hund
    dsimp only at hu
    rw [hu] at hund
    cases hund
  case forgets =>
    dsimp only at hu
    unfold Judged
    simp only [hx', hu, if_pos]
  case drives => cases hf.of_driving.2.1
  case ends | breaks => cases hf.of_hook.2.1
  case acknowledged | refused | unheard | belated => cases hf.of_posting.2.1

theorem Judged.resolving (hj : Judged h sid) {r : Report}
    (hp : (h.session sid).phase = .resolving r) : (h.session sid).claim = r.claim? := by
  unfold Judged at hj
  simp only [hp] at hj
  exact hj.2

/-- A failure that decides a session has been claimed, by the post or by a lost connection. -/
theorem Judged.failure (hj : Judged h sid) {e : PostError}
    (hp : (h.session sid).phase = .refused e ∨
      ∃ n, (h.session sid).phase = .resolving (.lost n) ∧ e = .network n) :
    (h.session sid).claim = some (.refused e) ∨
      ∃ n, (h.session sid).claim = some (.lost n) ∧ e = .network n := by
  rcases hp with hp | ⟨n, hp, he⟩
  · unfold Judged at hj
    simp only [hp] at hj
    exact .inl hj
  · exact .inr ⟨n, hj.resolving hp, he⟩

/-- Once its handlers are found the ending of a session is certain. -/
theorem Handles.settles (ha : Reachable h) (hj : Judged h sid) {ks : List HookId} {arg : Argument}
    {e : Ending} (hh : Handles h sid (h.session sid) ks arg e) : Settles h sid e := by
  have hb := ha.backed sid
  cases hh with
  | @fired s e hp _ =>
    have hc : (h.session sid).claim = some (.fired s e) := hj.resolving hp
    obtain ⟨hs, hh, hk⟩ := hb.fired s e hc
    refine .inr (.inr ⟨_, hc, .inl ?_⟩)
    rw [hk]
    cases hkind : (h.sub s).kind with
    | event => exact .event hs hh hkind hk
    | rejection => exact .rejection hs hh hkind hk
  | @timedOut s hp _ =>
    have hc : (h.session sid).claim = some (.timedOut s) := hj.resolving hp
    obtain ⟨hs, hh⟩ := hb.timedOut s hc
    exact .inr (.inr ⟨_, hc, .inl (.expiry hs hh)⟩)
  | failure hp hf hn =>
    rcases hj.failure hp with hc | ⟨n, hc, rfl⟩
    · exact .inr (.inr ⟨_, hc, .inl (.refused (by rw [hf]; exact hn))⟩)
    · refine .inr (.inr ⟨_, hc, .inl (.lost ?_)⟩)
      cases hf
      exact hn

theorem not_reported_of_no_members (ha : Reachable h) {c : Claim}
    (hc : (h.session sid).claim = some c) (hn : (h.session sid).members = []) :
    c.isReported = false := by
  have hb := ha.backed sid
  cases c with
  | fired s e =>
    have hs := (hb.fired s e hc).1
    rw [hn] at hs; cases hs
  | timedOut s =>
    have hs := (hb.timedOut s hc).1
    rw [hn] at hs; cases hs
  | lost e => exact absurd hn (hb.lost e hc)
  | _ => rfl

/-- A session that did not get ready closes with an error of one of its subscriptions, if there is
one. -/
theorem unready_settles (hc : (h.session sid).claim = some .unready) : Settles h sid (.resolved (.negative
    (match h.firstError? sid with | some e => .subscribeFailed e | none => .cancelled))) := by
  refine .inr (.inr ⟨_, hc, .inl ?_⟩)
  cases hf : h.firstError? sid with
  | none => exact .unready
  | some e =>
    obtain ⟨y, hy, he⟩ := List.exists_of_findSome?_eq_some hf
    obtain ⟨s, hs, rfl⟩ := List.mem_map.1 hy
    exact .unsubscribed hs he

/-- With nothing to wait for, a session closes because it was cancelled or because it was acknowledged. -/
theorem unawaited_settles (ha : Reachable h) (ho : (h.session sid).Open)
    (hb : .acknowledged ∈ h.beats sid) (hn : (h.session sid).members = []) :
    Settles h sid (.resolved (.positive none)) ∨
      (h.session sid).claim = none ∧ Escapes h sid .ended (.resolved (.positive none)) := by
  cases hcl : (h.session sid).claim with
  | none =>
    refine .inr ⟨rfl, .unawaited hb fun s hs hh => ?_⟩
    have hm := ha.wired.own s hs
    rw [hh, hn] at hm
    cases hm
  | some c =>
    rcases ho.claim c hcl with hr | ⟨-, hx⟩
    · rw [not_reported_of_no_members ha hcl hn] at hr; cases hr
    · exact .inl (.inl hx)

/-- A session that closes knows why, unless it was acknowledged and has nothing to wait for. -/
theorem Closes.settles (ha : Reachable h) (hj : Judged h sid) {e : Ending}
    (hc : Closes h sid (h.session sid) e) :
    Settles h sid e ∨ (h.session sid).claim = none ∧ Escapes h sid .ended e := by
  have hb := ha.backed sid
  have hj' := hj
  unfold Judged at hj'
  cases hc with
  | unready hp =>
    simp only [hp] at hj'
    exact .inl (unready_settles hj')
  | unawaited hp hn =>
    simp only [hp] at hj'
    exact unawaited_settles ha hj'.1 hj'.2 hn
  | unheld hp _ hn => exact absurd hn (ha.held sid (by rw [hp]; rfl))
  | unknown hp hn =>
    rcases hp with ⟨e, hp⟩ | hp
    · exact absurd (hb.fired _ e (hj.resolving hp)).1 hn
    · exact absurd (hb.timedOut _ (hj.resolving hp)).1 hn
  | unhandled hp hn =>
    rcases hj.failure hp with hc | ⟨n, hc, rfl⟩
    · exact .inl (.inr (.inr ⟨_, hc, .inl (.refusedUnheard hn)⟩))
    · exact .inl (.inr (.inr ⟨_, hc, .inl (.lostUnheard hn)⟩))
  | unheard hp =>
    simp only [hp] at hj'
    rcases hj' with ⟨hn, hbeat, c, hc, hr | hx⟩
    · exact .inl (.inr (.inr ⟨c, hc, .inr (.unheard hr hbeat hn)⟩))
    · exact .inl (.inl hx)
  | deserted hp =>
    simp only [hp] at hj'
    exact .inl (.inr (.inr ⟨_, hj', .inl .deserted⟩))
  | handled hp =>
    simp only [hp] at hj'
    exact .inl hj'
  | cancelling hp =>
    simp only [hp] at hj'
    exact .inl (.inl hj')

/-- An open session that goes on, nobody having acted on its claim, is open still. -/
theorem judged_advances (hj : Judged h sid) (hx : h.session sid = x) (hp : x.phase.isOpen)
    (hx' : h'.session sid = y) (hq : y.phase.isOpen) (hr : y.reports = x.reports)
    (hc : y.claim = x.claim) (hk : x.cancelled → y.cancelled)
    (hb : ∀ ks, y.phase = .acknowledging ks → .acknowledged ∈ h'.beats sid) : Judged h' sid := by
  subst hx hx'
  exact judged_of_open h' sid ((hj.open hp).of_eq hr hc hk) hq hb

/-- A hook that begins changes nothing of what is known. -/
theorem judged_begins (ha : Reachable h) (hm : Moved h m h') (hj : Judged h sid)
    (hx : h.session sid = x) {k : HookId} {arg : Argument} {p : Phase}
    (hn : x.phase.next? = some (k, arg, p))
    (hx' : h'.session sid = { x with phase := p, running := some (k, arg) }) : Judged h' sid := by
  unfold Phase.next? at hn
  split at hn
  case h_1 hq =>
    cases hn
    exact judged_advances hj hx (by rw [hq]; rfl) hx' rfl rfl rfl id nofun
  case h_2 hq =>
    cases hn
    have hb := (beats_move ha hm sid).subset (hj.acknowledged (by rw [hx, hq]))
    exact judged_advances hj hx (by rw [hq]; rfl) hx' rfl rfl rfl id fun _ _ => hb
  case h_3 e hq =>
    cases hn
    have hs := (judged_iff_settles (e := e) (by rw [hx, hq]; rfl)).1 hj
    exact (judged_iff_settles (by rw [hx']; rfl)).2
      (hs.move ha hm (by rw [hx, hq]; nofun) (by rw [hx, hq]; nofun))
  case h_4 => cases hn

/-- The report that a session resolves by carries its claim. -/
theorem judged_resolves (hj : Judged h sid) (hx : h.session sid = x) (hp : x.phase = .awaiting)
    {r : Report} {rs : List Report} (hr : x.reports = r :: rs) (hs : r.claim?.isSome)
    (hx' : h'.session sid = ({ x with reports := rs, phase := .resolving r }).settled .ended) :
    Judged h' sid := by
  subst hx
  have hc := (hj.open (by rw [hp]; rfl)).resolves hr hs
  obtain ⟨c, hrc⟩ := Option.isSome_iff_exists.1 hs
  unfold Judged
  simp only [hx', Session.settled]
  exact ⟨hs, by rw [hc, hrc, Option.some_or]⟩

theorem judged_closes (ha : Reachable h) (hm : Moved h m h') (hj : Judged h sid)
    (hx : h.session sid = x) (hu : x.phase ≠ .unopened) (hcf : x.phase ≠ .configuring) {e : Ending}
    (hc : Closes h sid x e)
    (hx' : h'.session sid = ({ x with phase := .closing e }).settled .ended) : Judged h' sid := by
  subst hx
  refine (judged_iff_settles (by rw [hx']; rfl)).2 ?_
  rcases Closes.settles ha hj hc with hs | ⟨hn, he⟩
  · exact hs.move ha hm hcf hu
  · refine .inr (.inr ⟨.ended, ?_, .inr (he.move ha hm hcf)⟩)
    simp only [hx', Session.settled, hn, Option.none_or]

/-- A session that runs acts on the claim as it finds it. -/
theorem judged_drives {v w : View} (ha : Reachable h) (hm : Moved h m h') (hj : Judged h sid)
    (hv : h.view sid = v) (hv' : h'.view sid = w) (hd : Drives h h' sid v w)
    (hp : v.self.phase.isStill = false) : Judged h' sid := by
  have hlast := judged_same sid ha hm
  have hx : h.session sid = v.self := congrArg View.self hv
  have hx' : h'.session sid = w.self := congrArg View.self hv'
  have hu : v.self.phase ≠ .unopened := fun he => by rw [he] at hp; cases hp
  have hcf : v.self.phase ≠ .configuring := fun he => by rw [he] at hp; cases hp
  rw [hx, hx'] at hlast
  cases hd
  case fails | deserted | vanishes =>
    unfold Judged
    simp only [hx']
  case skips hq _ | decided hq _ | posts hq _ =>
    exact judged_advances hj hx (by rw [hq]; rfl) hx' rfl rfl rfl id nofun
  case passes hq _ _ | awaits hq _ _ =>
    exact judged_advances hj hx (by rw [hq]; rfl) hx' rfl rfl rfl id nofun
  case begins hn => exact judged_begins ha hm hj hx hn hx'
  case resumes | waits => exact hlast rfl hu id hj
  case dismisses hr _ => exact hlast rfl hu (fun ho => ho.dismisses hr) hj
  case resolves hq hr hs => exact judged_resolves hj hx hq hr hs hx'
  case returns hq =>
    unfold Judged at hj
    simp only [hx, hq] at hj
    cases hj.1
  case handles hh =>
    have hs := Handles.settles ha hj (by rw [hx]; exact hh)
    rw [← hx] at hu hcf
    exact (judged_iff_settles (by rw [hx']; rfl)).2 (hs.move ha hm hcf hu)
  case closes hc _ => exact judged_closes ha hm hj hx hu hcf hc hx'
  case leaves e hq =>
    have hs := (judged_iff_settles (e := e) (by rw [hx, hq]; rfl)).1 hj
    rw [← hx] at hu hcf
    exact (judged_iff_settles (by rw [hx']; rfl)).2 (hs.move ha hm hcf hu)
  case stops hq => exact absurd (hp.symm.trans hq) Bool.false_ne_true

/-- A failed post that nobody hears of leaves the claim that came before it. -/
theorem judged_unheard (hj : Judged h sid) (hx : h.session sid = x) (hp : x.phase = .posting)
    {e : PostError} (hs : x.isSettled) (hn : (x.hooks.forError e).1 = [])
    (hx' : h'.session sid = { x with phase := .unheard e }) (hb : .refused e ∈ h'.beats sid) :
    Judged h' sid := by
  subst hx
  obtain ⟨c, hc⟩ := Option.isSome_iff_exists.1 hs
  have ho := hj.open (by rw [hp]; rfl)
  unfold Judged
  simp only [hx']
  exact ⟨hn, hb, c, hc, (ho.claim c hc).imp id And.right⟩

/-- A session that enters looks first, if it has not been run before. -/
theorem judged_enters (ha : Reachable h) (hm : Moved h m h') (hj : Judged h sid)
    (hx : h.session sid = x) (hu : x.phase ≠ .unopened)
    (hx' : h'.session sid = { x with phase := if x.phase = .prepared then .checking else x.phase }) :
    Judged h' sid := by
  by_cases hq : x.phase = .prepared
  · rw [if_pos hq] at hx'
    exact judged_advances hj hx (by rw [hq]; rfl) hx' rfl rfl rfl id nofun
  · rw [if_neg hq] at hx'
    subst hx
    exact judged_same sid ha hm (by rw [hx']) hu (by rw [hx']; exact id) hj

theorem judged_breaks {e : Ending} (he : (∃ n, e = .failed (.hook n)) ∨ ∃ n, e = .panicked n)
    (hp : (h'.session sid).phase = .closing e) : Judged h' sid := by
  refine (judged_iff_settles (by rw [hp]; rfl)).2 (.inr (.inl ?_))
  rcases he with ⟨_, rfl⟩ | ⟨_, rfl⟩ <;> rfl

theorem judged_move (ha : Reachable h) (hm : Moved h m h') (hj : Judged h sid) : Judged h' sid := by
  by_cases hu : (h.session sid).phase = .unopened
  · exact judged_unopened ha hm hj hu
  have ht := move_turn ha.wired hm sid
  have hf := ha.fits sid
  have hlast := judged_same sid ha hm
  generalize hv : h.view sid = v at ht
  generalize hv' : h'.view sid = w at ht
  have hx : h.session sid = v.self := congrArg View.self hv
  have hth : h.thread sid = v.thread := congrArg View.thread hv
  have hx' : h'.session sid = w.self := congrArg View.self hv'
  have hb' : h'.beats sid = w.beats := congrArg View.beats hv'
  rw [hx, hth] at hf
  rw [hx, hx'] at hlast
  rw [hx] at hu
  cases ht
  case idle | runs | rehooks | pauses => exact hlast rfl hu id hj
  case opens => exact absurd rfl hu
  case decides hd hc hn => exact hlast rfl hu (fun ho => ho.decides hn hc) hj
  case hears => exact hlast rfl hu (fun ho => ho.hears _) hj
  case revoked => exact hlast rfl hu (fun ho => ho.of_eq rfl rfl fun _ => rfl) hj
  case withdrawn => exact hlast rfl hu Session.Open.withdrawn hj
  case enrols | subscribes | hooks | timeout | ends =>
    exact hlast rfl hu (fun ho => ho.of_eq rfl rfl id) hj
  case prepares hn _ => exact absurd hn hu
  case configured =>
    exact judged_advances hj hx (by rw [hf.of_configuring.1]; rfl) hx' rfl rfl rfl id nofun
  case enters => exact judged_enters ha hm hj hx hu hx'
  case aborts | drops =>
    unfold Judged
    simp only [hx']
    first | assumption | trivial
  case refused =>
    unfold Judged
    simp only [hx']
  case forgets =>
    dsimp only at hu
    unfold Judged
    simp only [hx', if_neg hu]
  case drives hd => exact judged_drives ha hm hj hv hv' hd hf.of_driving.2.1
  case breaks he _ => exact judged_breaks he (by rw [hx']; rfl)
  case acknowledged =>
    refine judged_advances hj hx (by rw [hf.of_posting.2.1]; rfl) hx' rfl rfl rfl id fun _ _ => ?_
    rw [hb']
    exact List.mem_append_right _ List.mem_cons_self
  case unheard hs hn =>
    refine judged_unheard hj hx hf.of_posting.2.1 hs hn hx' ?_
    rw [hb']
    exact List.mem_append_right _ List.mem_cons_self
  case belated =>
    exact judged_advances hj hx (by rw [hf.of_posting.2.1]; rfl) hx' rfl rfl rfl id nofun

theorem Reachable.judged (hr : Reachable h) (sid : SessionId) : Judged h sid := by
  induction hr using Reachable.induct with
  | init settings => exact ⟨rfl, rfl, rfl⟩
  | move a b m ha hm ih => exact judged_move ha (moved_of_move? hm) ih

/-- A claim lasts: whatever happens later, nobody claims the session again. -/
theorem Reachable.claim_lasts (hr : Reachable h) (hl : Later h h') {c : Claim}
    (hc : (h.session sid).claim = some c) : (h'.session sid).claim = some c := by
  induction hl with
  | refl => exact hc
  | move hl hm ih => exact claim_move (hr.later hl) (moved_of_move? hm) ih

/-- The first claim wins. Once a session is claimed it is never claimed again, and a session that
comes to its end without a cancellation and without a failing hook ends as its claim dictates, or in
one of the two ways that no claim dictates. -/
theorem first_claim_wins (hr : Reachable h) (sid : SessionId) :
    (∀ h' c, Later h h' → (h.session sid).claim = some c → (h'.session sid).claim = some c) ∧
    ∀ e, (h.session sid).phase = .ended e → (h.session sid).cancelled = false →
      e.isBroken = false →
      ∃ c, (h.session sid).claim = some c ∧ (Dictates h sid c e ∨ Escapes h sid c e) := by
  refine ⟨fun h' c hl hc => hr.claim_lasts hl hc, fun e hp hn hb => ?_⟩
  have hj := hr.judged sid
  unfold Judged at hj
  simp only [hp] at hj
  rcases hj with hc | he | hd
  · rw [hn] at hc; cases hc
  · rw [hb] at he; cases he
  · exact hd

end

/-- The session of a number, with one subscription of the same number, is configured, posts its
command and waits. -/
def oneWaits (i : Nat) (kind : Kind) : List Move :=
  [.openSession none none, .run i, .step, .subscribe default kind, .granted i, .configured,
    .step, .step, .step, .postReplied .acknowledged, .step, .step]

/-- The event of that subscription arrives and its session runs to its end. -/
def oneArrives (i : Nat) : List Move :=
  [.deliver i ⟨default, .blank⟩, .unsubscribed, .step, .run i] ++ List.replicate 9 .step

theorem delivery_wins : ∃ h, Reachable h ∧
    (∀ h' c, Later h h' → (h.session 0).claim = some c → (h'.session 0).claim = some c) ∧
    ∃ c, (h.session 0).claim = some c ∧
      (Dictates h 0 c (.resolved (.positive (some default))) ∨
        Escapes h 0 c (.resolved (.positive (some default)))) := by
  obtain ⟨h, hr, hp, hc⟩ := Reachable.exists_of_run {} (oneWaits 0 .event ++ oneArrives 0)
    (fun h => (h.session 0).phase = .ended (.resolved (.positive (some default))) ∧
      (h.session 0).cancelled = false) (by decide)
  have hw := first_claim_wins hr 0
  exact ⟨h, hr, hw.1, hw.2 _ hp hc rfl⟩

end Hub
end Aftermath
