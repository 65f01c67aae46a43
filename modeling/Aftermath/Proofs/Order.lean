import Aftermath.Proofs.Words

/-! The order of hooks. What has been heard of a session is the beginning of a word, in each phase up to
a certain point. -/

namespace Aftermath.Hub

/-- What has been heard of a session in a phase. -/
def Heard (h : Hub) (sid : SessionId) (x : Session) (b : List Beat) : Phase → Prop
  | .unopened | .configuring | .prepared | .checking | .unready => b = []
  | .preparing ks => Playing [] x.hooks.beforePost .nothing ks x.running b ∨
      ks = [] ∧ x.isSettled ∧ x.running = none ∧ b = []
  | .posting => b = x.hooks.prepared ++ [.posts]
  | .acknowledging ks => Playing (x.hooks.prepared ++ [.posts, .acknowledged])
      x.hooks.acknowledge .nothing ks x.running b
  | .awaiting | .resolving _ | .deserted => x.hooks.Opening b
  | .refused e | .unheard e => b = x.hooks.refused e
  | .handling ks arg _ => ∃ o all, x.hooks.Opening o ∧ Path h sid x.hooks o all arg ∧
      Playing o all arg ks x.running b
  | .cancelling => x.cancelled ∧ CutShort h sid x.hooks b
  | .closing e | .ended e => ∃ all w, Word h sid x.hooks all w ∧ b <+: w ∧
      (x.cancelled ∨ e.isBroken ∨ b = w)
  | .dropping | .dropped | .forgone => CutShort h sid x.hooks b

section
variable {h h' : Hub} {sid : SessionId} {m : Move} {s : SubId} {x y : Session} {u v : View}
variable {hs : Hooks} {all : List HookId} {b w : List Beat} {p : Phase}

/-- Whatever has been heard of a session is the beginning of a word. -/
theorem Heard.cut_short (hb : Heard h sid x b p) : CutShort h sid x.hooks b := by
  cases p with
  | unopened | configuring | prepared | checking | unready =>
    rw [show b = [] from hb]; exact .of_opening .untouched
  | preparing ks =>
    rcases hb with hp | ⟨-, -, -, rfl⟩
    · exact .of_prefix_opening .prepared hp.prefix_full
    · exact .of_opening .untouched
  | posting =>
    apply CutShort.of_prefix_opening Hooks.Opening.acknowledged
    rw [show b = _ from hb, Hooks.acknowledged, List.append_assoc]
    exact (List.prefix_append_right_inj _).2 ⟨.acknowledged :: played x.hooks.acknowledge .nothing, rfl⟩
  | acknowledging ks => exact .of_prefix_opening .acknowledged (Playing.prefix_full hb)
  | awaiting | resolving _ | deserted => exact .of_opening hb
  | refused e | unheard e => rw [show b = _ from hb]; exact .of_opening .refused
  | handling ks arg e =>
    obtain ⟨o, all, ho, hp, hb⟩ := hb
    exact ⟨all, _, ⟨o, _, ho, hp, rfl⟩, hb.prefix_full⟩
  | cancelling => exact hb.2
  | closing e | ended e =>
    obtain ⟨all, w, hw, hb, -⟩ := hb
    exact ⟨all, w, hw, hb⟩
  | dropping | dropped | forgone => exact hb

/-- What has been heard does not depend on the rest of the session. -/
theorem Heard.of_eq (hb : Heard h sid x b p) (hh : y.hooks = x.hooks)
    (hr : y.running = x.running) (hs : x.isSettled → y.isSettled)
    (hc : x.cancelled → y.cancelled) : Heard h sid y b p := by
  cases p <;> simp only [Heard, hh, hr] at hb ⊢
  case preparing => exact hb.imp id fun ⟨hk, hx, hr, he⟩ => ⟨hk, hs hx, hr, he⟩
  case cancelling => exact ⟨hc hb.1, hb.2⟩
  case closing | ended =>
    obtain ⟨all, w, hw, hb, he⟩ := hb
    exact ⟨all, w, hw, hb, he.imp hc id⟩
  all_goals exact hb

/-- A hook that begins is heard of next. -/
theorem Heard.begins {k : HookId} {arg : Argument} {q : Phase} (hn : p.next? = some (k, arg, q))
    (hr : x.running = none) (hb : Heard h sid x b p) :
    Heard h sid { x with phase := q, running := some (k, arg) } (b ++ [.begins k arg]) q := by
  unfold Phase.next? at hn
  split at hn <;> cases hn
  · rcases hb with hp | ⟨he, -⟩
    · rw [hr] at hp; exact .inl hp.begins
    · cases he
  · rw [Heard, hr] at hb; exact hb.begins
  · obtain ⟨o, all, ho, hpa, hp⟩ := hb
    rw [hr] at hp
    exact ⟨o, all, ho, hpa, hp.begins⟩

/-- A hook that ends is heard of as well. -/
theorem Heard.ends {k : HookId} {arg : Argument} (hp : p.isHooking) (hr : x.running = some (k, arg))
    (hb : Heard h sid x b p) : Heard h sid { x with running := none } (b ++ [.ends k]) p := by
  unfold Phase.isHooking at hp
  split at hp
  · rcases hb with hp | ⟨-, -, hn, -⟩
    · rw [hr] at hp; exact .inl hp.ends
    · rw [hr] at hn; cases hn
  · rw [Heard, hr] at hb; exact hb.ends
  · obtain ⟨o, all, ho, hpa, hp⟩ := hb
    rw [hr] at hp
    exact ⟨o, all, ho, hpa, hp.ends⟩
  · cases hp

/-- The handlers that come next are told of the outcome. -/
theorem Heard.told_next {k : HookId} {ks : List HookId} {arg : Argument} {e : Ending}
    (hb : Heard h sid x b (.handling (k :: ks) arg e)) : arg ≠ .nothing := by
  obtain ⟨o, all, -, hp, hplay⟩ := hb
  refine hp.told ?_
  rintro rfl
  generalize x.running = r at hplay
  cases hplay with
  | rests he | runs he => simp at he

/-- While a handler runs, a hook has been told of the outcome. -/
theorem Heard.told_running {ks : List HookId} {arg : Argument} {e : Ending}
    (hb : Heard h sid x b (.handling ks arg e)) (hr : x.running.isSome) : told b ≠ [] := by
  obtain ⟨o, all, -, hp, hplay⟩ := hb
  obtain ⟨q, hq⟩ := Option.isSome_iff_exists.1 hr
  rw [hq] at hplay
  cases hplay with
  | @runs done k _ he =>
    exact List.ne_nil_of_mem (mem_told.2 ⟨List.mem_append_right _ List.mem_cons_self,
      hp.told (by simp [he])⟩)

/-- A session that closes by itself has said a whole word. -/
theorem Closes.word {e : Ending} (hc : Closes h sid x e) (hr : x.running = none)
    (hb : Heard h sid x b x.phase) :
    ∃ all w, Word h sid x.hooks all w ∧ b <+: w ∧ (x.cancelled ∨ e.isBroken ∨ b = w) := by
  have opening : x.hooks.Opening b → ∃ all w, Word h sid x.hooks all w ∧ b <+: w ∧
      (x.cancelled ∨ e.isBroken ∨ b = w) := fun ho =>
    ⟨[], b, .of_opening ho, List.prefix_rfl, .inr (.inr rfl)⟩
  cases hc with
  | unready hq =>
    rw [hq] at hb
    exact opening (by rw [show b = [] from hb]; exact .untouched)
  | unawaited hq _ =>
    rw [hq, Heard, hr] at hb
    exact opening (by rw [hb.full]; exact .acknowledged)
  | unheld hq _ _ => rw [hq] at hb; exact opening hb
  | unknown hq _ =>
    rcases hq with ⟨_, hq⟩ | hq
    · rw [hq] at hb; exact opening hb
    · rw [hq] at hb; exact opening hb
  | unhandled hq _ =>
    rcases hq with hq | ⟨_, hq, -⟩
    · rw [hq] at hb
      exact opening (by rw [show b = _ from hb]; exact .refused)
    · rw [hq] at hb; exact opening hb
  | unheard hq =>
    rw [hq] at hb
    exact opening (by rw [show b = _ from hb]; exact .refused)
  | deserted hq => rw [hq] at hb; exact opening hb
  | handled hq =>
    rw [hq] at hb
    obtain ⟨o, all, ho, hpa, hp⟩ := hb
    rw [hr] at hp
    exact ⟨all, b, ⟨o, _, ho, hpa, hp.full⟩, List.prefix_rfl, .inr (.inr rfl)⟩
  | cancelling hq =>
    rw [hq] at hb
    obtain ⟨hc, all, w, hw, hb⟩ := hb
    exact ⟨all, w, hw, hb, .inl hc⟩

/-- A session that runs is heard of in order. -/
theorem Drives.heard (hd : Drives h h' sid u v) (hr : u.self.running = none)
    (hb : Heard h sid u.self u.beats u.self.phase)
    (hpath : ∀ ks arg e, Handles h sid u.self ks arg e →
      u.self.hooks.Opening u.beats ∧ Path h sid u.self.hooks u.beats ks arg) :
    Heard h sid v.self v.beats v.self.phase := by
  have before : ∀ {q}, u.self.phase = q → Heard h sid u.self u.beats q := fun hq => hq ▸ hb
  cases hd
  case fails hq _ _ | resolves hq _ _ => exact before hq
  case skips hq hx => exact .inr ⟨rfl, hx, hr, before hq⟩
  case passes x t b hq _ _ =>
    obtain rfl : b = [] := before hq
    have hp := Playing.start [] x.hooks.beforePost .nothing
    exact .inl (by dsimp only at hr ⊢; rw [hr]; exact hp)
  case begins hn => exact hb.begins hn hr
  case decided x t b hq _ =>
    rcases before hq with hp | ⟨-, -, -, rfl⟩
    · dsimp only at hr hp
      rw [hr] at hp
      show x.hooks.Opening b
      rw [hp.full]; exact .prepared
    · exact .untouched
  case posts x t b hq hn =>
    rcases before hq with hp | ⟨-, hx, -⟩
    · dsimp only at hr hp
      rw [hr] at hp
      show b ++ [.posts] = _
      rw [hp.full]; rfl
    · exact absurd (Option.isSome_iff_exists.1 hx) (by rw [show Session.claim _ = none from hn]; nofun)
  case resumes | waits | stops => exact hb
  case awaits x t b hq _ _ =>
    have hp := before hq
    dsimp only at hr
    rw [Heard, hr] at hp
    have hfull : b = _ := hp.full
    show x.hooks.Opening b
    rw [hfull]; exact .acknowledged
  case dismisses => exact hb.of_eq rfl rfl id id
  case deserted hq _ _ _ => exact before hq
  case returns hq | leaves hq | vanishes hq => exact before hq
  case handles x t b ks arg e hh =>
    obtain ⟨ho, hpa⟩ := hpath ks arg e hh
    have hp := Playing.start b ks arg
    exact ⟨b, ks, ho, hpa, by dsimp only at hr ⊢; rw [hr]; exact hp⟩
  case closes hc _ => exact hc.word hr hb

/-- What is heard of a session whose post is answered. -/
theorem heard_acknowledged {x : Session} {b : List Beat} (hr : x.running = none)
    (hb : b = x.hooks.prepared ++ [.posts]) :
    Heard h sid { x with phase := .acknowledging x.hooks.acknowledge } (b ++ [.acknowledged])
      (.acknowledging x.hooks.acknowledge) := by
  have hp := Playing.start (x.hooks.prepared ++ [.posts, .acknowledged]) x.hooks.acknowledge .nothing
  show Playing _ _ _ _ x.running (b ++ [.acknowledged])
  rw [hr, hb, List.append_assoc]
  exact hp

theorem refused_of_posts {hs : Hooks} {b : List Beat} (hb : b = hs.prepared ++ [.posts]) (e : PostError) :
    b ++ [.refused e] = hs.refused e := by
  rw [hb, List.append_assoc]
  rfl

/-- Every turn goes on with the word. -/
theorem Turn.heard (ht : Turn h h' sid u v) (hf : Fits sid u.self.phase u.self.running u.thread)
    (hb : Heard h sid u.self u.beats u.self.phase)
    (hpath : ∀ ks arg e, Handles h sid u.self ks arg e →
      u.self.hooks.Opening u.beats ∧ Path h sid u.self.hooks u.beats ks arg) :
    Heard h sid v.self v.beats v.self.phase := by
  have before : ∀ {q}, u.self.phase = q → Heard h sid u.self u.beats q := fun hq => hq ▸ hb
  cases ht
  case idle | opens | runs | rehooks | pauses => exact hb
  case decides => exact hb.of_eq rfl rfl (fun _ => rfl) id
  case hears | enrols | subscribes | timeout => exact hb.of_eq rfl rfl id id
  case revoked => exact hb.of_eq rfl rfl id fun _ => rfl
  case withdrawn => exact hb.of_eq rfl rfl (fun _ => Session.isSettled_settled _ _) fun _ => rfl
  case hooks x t b _ _ =>
    have hq : x.phase = .configuring := hf.of_configuring.1
    show Heard h sid _ b x.phase
    rw [hq]; exact before hq
  case prepares hq _ => exact before hq
  case configured => exact before hf.of_configuring.1
  case enters x t b _ _ =>
    dsimp only
    split
    · next hq => exact before hq
    · exact hb.of_eq rfl rfl id id
  case aborts hc => exact ⟨hc, hb.cut_short⟩
  case drops => exact hb.cut_short
  case forgets =>
    dsimp only
    split
    · exact hb.cut_short
    · exact hb.cut_short
  case drives hr hd => exact hd.heard hr hb hpath
  case ends =>
    obtain ⟨-, hp, hr⟩ := hf.of_hook
    exact hb.ends hp hr
  case breaks he _ =>
    obtain ⟨all, w, hw, hb⟩ := hb.cut_short
    refine ⟨all, w, hw, hb, .inr (.inl ?_)⟩
    rcases he with ⟨_, rfl⟩ | ⟨_, rfl⟩ <;> rfl
  case acknowledged x t b =>
    obtain ⟨-, hq, hr⟩ := hf.of_posting
    exact heard_acknowledged hr (before hq)
  case refused | unheard => exact refused_of_posts (before hf.of_posting.2.1) _
  case belated x t b e _ _ =>
    show x.hooks.Opening (b ++ [.refused e])
    rw [refused_of_posts (before hf.of_posting.2.1)]
    exact .refused

end

/-! ### Countdowns that have started -/

section
variable {h h' : Hub} {sid : SessionId} {m : Move} {s : SubId} {v w : SubView}

theorem Shift.armed_mono (hs : Shift h h' s v w) (ha : v.self.armed) : w.self.armed := by
  cases hs
  case born | bornLate => cases ha
  all_goals first | exact ha | rfl

/-- Only the acknowledgement of a session starts the countdowns of its members. -/
theorem Shift.armed_cases (hs : Shift h h' s v w) (hw : w.self.armed) :
    v.self.armed ∨ ∃ i, (h.session i).phase = .acknowledging [] ∧ s ∈ (h.session i).members := by
  cases hs
  case born | bornLate => cases hw
  case armed hq _ _ hin _ _ => exact .inr ⟨_, hq, hin⟩
  all_goals exact .inl hw

/-- A countdown has started only after the command was acknowledged, unless the subscription was
lent to another session. -/
theorem Reachable.acknowledged_of_armed (hr : Reachable h) (hs : (h.sub s).armed) :
    .acknowledged ∈ h.beats (h.sub s).home ∨ Lent h s := by
  induction hr using Reachable.induct with
  | init settings => cases hs
  | move a b m ha hm ih =>
    have hm := moved_of_move? hm
    have hsh := move_shift ha.wired hm s
    have hold : .acknowledged ∈ a.beats (a.sub s).home ∨ Lent a s := by
      rcases hsh.armed_cases hs with hv | ⟨i, hq, hin⟩
      · exact ih hv
      · by_cases hi : i = (a.sub s).home
        · have hj := ha.judged i
          unfold Judged at hj
          simp only [hq] at hj
          exact .inl (hi ▸ hj.2)
        · exact .inr ⟨i, hi, hin⟩
    have hlt : s < a.subs.length := by
      rcases hsh.armed_cases hs with hv | ⟨i, -, hin⟩
      · apply Nat.lt_of_not_le
        intro hle
        rw [ha.subView_beyond hle] at hv; cases hv
      · exact ha.wired.members i s hin
    rw [(sub_fixed ha.wired hm hlt).1]
    exact hold.imp (fun hb => (beats_move ha hm _).subset hb) (Lent.move ha hm)

/-- A countdown that has decided a session had started. -/
theorem Reachable.armed_of_claim (hr : Reachable h)
    (hc : (h.session sid).claim = some (.timedOut s)) : (h.sub s).armed := by
  induction hr using Reachable.induct with
  | init settings => cases hc
  | move a b m ha hm ih =>
    have hm := moved_of_move? hm
    apply (move_shift ha.wired hm s).armed_mono
    rcases (move_turn ha.wired hm sid).claim_cases hc rfl with hc | ⟨r, hd, hr⟩
    · exact ih hc
    · cases hd <;> cases hr
      rename_i hst _
      exact (ha.kept s).expired (mem_flight hst rfl)

end

/-! ### The word of a session -/

section
variable {h h' : Hub} {sid : SessionId} {m : Move} {hs : Hooks} {all : List HookId}
variable {o b w : List Beat} {arg : Argument} {x : Session} {p : Phase}

theorem Heard.move (ha : Reachable h) (hm : h.move? m = some h') (hb : Heard h sid x b p) :
    Heard h' sid x b p := by
  cases p with
  | handling ks arg e =>
    obtain ⟨o, all, ho, hp, hb⟩ := hb
    exact ⟨o, all, ho, hp.move ha hm, hb⟩
  | cancelling => exact ⟨hb.1, hb.2.move ha hm⟩
  | closing e | ended e =>
    obtain ⟨all, w, hw, hb⟩ := hb
    exact ⟨all, w, hw.move ha hm, hb⟩
  | dropping | dropped | forgone => exact CutShort.move ha hm hb
  | _ => exact hb

/-- The handlers that are found when the outcome is clear are a path. -/
theorem Handles.path {ks : List HookId} {e : Ending} (hr : Reachable h)
    (hh : Handles h sid (h.session sid) ks arg e)
    (hb : Heard h sid (h.session sid) b (h.session sid).phase) (hbe : b = h.beats sid) :
    (h.session sid).hooks.Opening b ∧ Path h sid (h.session sid).hooks b ks arg := by
  have hj := hr.judged sid
  cases hh with
  | fired hq _ =>
    have ho : (h.session sid).hooks.Opening b := by rw [hq] at hb; exact hb
    exact ⟨ho, .event (hj.resolving hq) .refl⟩
  | @timedOut s hq _ =>
    have ho : (h.session sid).hooks.Opening b := by rw [hq] at hb; exact hb
    have hc : (h.session sid).claim = some (.timedOut s) := hj.resolving hq
    refine ⟨ho, .timeout hc .refl ?_⟩
    refine (hr.acknowledged_of_armed (hr.armed_of_claim hc)).imp (fun hack => ?_) id
    rw [((hr.backed sid).timedOut s hc).2, ← hbe] at hack
    exact ho.of_acknowledged hack
  | @failure e _ _ hq hf _ =>
    rcases hq with hq | ⟨n, hq, rfl⟩
    · obtain rfl : b = (h.session sid).hooks.refused e := by rw [hq] at hb; exact hb
      refine ⟨.refused, ?_⟩
      cases e <;> cases hf
      · exact .server rfl
      · exact .network (.inl rfl)
    · have ho : (h.session sid).hooks.Opening b := by rw [hq] at hb; exact hb
      cases hf
      exact ⟨ho, .network (.inr (hj.resolving hq))⟩

theorem Reachable.heard (hr : Reachable h) (sid : SessionId) :
    Heard h sid (h.session sid) (h.beats sid) (h.session sid).phase := by
  induction hr using Reachable.induct with
  | init settings => rfl
  | move a b m ha hm ih =>
    have ht := (move_turn ha.wired (moved_of_move? hm) sid).heard (ha.fits sid) ih fun ks arg e hh =>
      Handles.path ha hh ih rfl
    exact Heard.move ha hm ht

/-- Hooks keep their order. What is heard of a session is the beginning of a word, and the whole word
when the session has come to its end without a cancellation and without a failing hook; no hook
begins more often than it has been registered. -/
theorem hooks_keep_order (hr : Reachable h) (sid : SessionId) :
    ∃ all w, Word h sid (h.session sid).hooks all w ∧ h.beats sid <+: w ∧
      (begun (h.beats sid)).Sublist
        ((h.session sid).hooks.beforePost ++ (h.session sid).hooks.acknowledge ++ all) ∧
      ∀ e, (h.session sid).phase = .ended e → (h.session sid).cancelled = false →
        e.isBroken = false → h.beats sid = w := by
  have hb := hr.heard sid
  have sub : ∀ {all w}, Word h sid (h.session sid).hooks all w → h.beats sid <+: w →
      (begun (h.beats sid)).Sublist
        ((h.session sid).hooks.beforePost ++ (h.session sid).hooks.acknowledge ++ all) := by
    intro all w hw hp
    exact (hp.filterMap Beat.hook?).sublist.trans hw.begun
  by_cases hq : ∃ e, (h.session sid).phase = .ended e
  · obtain ⟨e, hq⟩ := hq
    rw [hq] at hb
    obtain ⟨all, w, hw, hp, he⟩ := hb
    refine ⟨all, w, hw, hp, sub hw hp, fun e' hq' hc hn => ?_⟩
    obtain rfl := Phase.ended.inj (hq.symm.trans hq')
    rcases he with hx | hx | hx
    · rw [hc] at hx; cases hx
    · rw [hn] at hx; cases hx
    · exact hx
  · obtain ⟨all, w, hw, hp⟩ := hb.cut_short
    exact ⟨all, w, hw, hp, sub hw hp, fun e hq' => absurd ⟨e, hq'⟩ hq⟩

end

theorem delivered_session_keeps_order : ∃ h, Reachable h ∧
    (h.session 0).phase = .ended (.resolved (.positive (some default))) ∧
    ∃ all, Word h 0 (h.session 0).hooks all (h.beats 0) := by
  obtain ⟨h, hr, hp, hc⟩ := Reachable.exists_of_run {} (oneWaits 0 .event ++ oneArrives 0)
    (fun h => (h.session 0).phase = .ended (.resolved (.positive (some default))) ∧
      (h.session 0).cancelled = false) (by decide)
  obtain ⟨all, w, hw, -, -, he⟩ := hooks_keep_order hr 0
  rw [← he _ hp hc rfl] at hw
  exact ⟨h, hr, hp, all, hw⟩

/-- A session that is still before its post lends its subscription to another one, whose
acknowledgement starts the countdown; the first session then hears of a timeout. -/
def oneLends : List Move :=
  [.openSession none none, .run 0, .step, .subscribe default .event, .granted 0,
    .timeoutWith 0 5 7, .addHook .beforePost 1, .configured, .step, .step, .step,
    .hookReplied .suspended,
    .openSession none none, .run 1, .step, .subscribe default .event, .granted 1, .register 1 0,
    .configured, .step, .step, .step, .postReplied .acknowledged, .step, .step,
    .pass 5, .ring 0 1, .unsubscribed, .step,
    .run 0, .step, .step, .hookReplied .done] ++ List.replicate 6 .step

/-- A timeout handler may begin in a session that has not posted its command. -/
theorem timeout_handled_before_post : ¬ ∀ (h : Hub) (sid : SessionId) (k : HookId) (key : Key),
    Reachable h → .begins k (.timeout key) ∈ h.beats sid → .acknowledged ∈ h.beats sid := by
  intro hall
  obtain ⟨h, hr, hb, hn⟩ := Reachable.exists_of_run {} oneLends
    (fun h => .begins 7 (.timeout default) ∈ h.beats 0 ∧ .acknowledged ∉ h.beats 0)
    (by decide)
  exact hn (hall h 0 7 default hr hb)

end Aftermath.Hub
