import Aftermath.Proofs.Fields
import Aftermath.Proofs.Reach

/-! What the surroundings have given a hub: its settings and the time, the handlers and timeouts of its
subscriptions, the hooks and the default timeouts of its sessions. Each is given by a move of its own, and
nothing the hub does by itself touches them. -/

namespace Aftermath

structure Subscription.Gifts where
  handler : Option HookId := none
  timeoutHandler : Option HookId := none
  timeout : Option Nat := none

abbrev Subscription.gifts (x : Subscription) : Gifts := ⟨x.handler, x.timeoutHandler, x.timeout⟩

structure Session.Gifts where
  hooks : Hooks := {}
  timeout : Option Nat := none

abbrev Session.gifts (x : Session) : Gifts := ⟨x.hooks, x.timeout⟩

namespace Hub

@[ext] structure Given where
  subs : List Subscription.Gifts
  sessions : List Session.Gifts
  settings : Settings
  clock : Nat

def given (h : Hub) : Given := ⟨h.subs.map (·.gifts), h.sessions.map (·.gifts), h.settings, h.clock⟩

section
variable {α β : Type} {f : α → α} {g : α → β} {k : β → β}

theorem map_modify_comm (hf : ∀ x, g (f x) = k (g x)) (l : List α) (i : Nat) :
    (l.modify i f).map g = (l.map g).modify i k := by
  refine List.ext_getElem (by simp) fun j _ _ => ?_
  rw [List.getElem_map, List.getElem_modify, List.getElem_modify, List.getElem_map]
  split
  · exact hf _
  · rfl

theorem map_modify (hf : ∀ x, g (f x) = g x) (l : List α) (i : Nat) :
    (l.modify i f).map g = l.map g :=
  (map_modify_comm (k := id) hf l i).trans (List.modify_id _ _)

end

/-! ### Operations that give nothing -/

section
variable (h : Hub) (i : SessionId) (s : SubId)

@[simp] theorem given_note (x : Happening) : (h.note x).given = h.given := rfl

@[simp] theorem given_push (f : Frame) : (h.push f).given = h.given := rfl

@[simp] theorem given_pop : h.pop.given = h.given := rfl

@[simp] theorem given_reply (a : Answer) : (h.reply a).given = h.given := rfl

@[simp] theorem given_onSub {f : Subscription → Subscription}
    (hf : ∀ x, (f x).gifts = x.gifts) : (h.onSub s f).given = h.given :=
  Given.ext (map_modify hf _ _) rfl rfl rfl

@[simp] theorem given_onSession {f : Session → Session} (hf : ∀ x, (f x).gifts = x.gifts) :
    (h.onSession i f).given = h.given :=
  Given.ext rfl (map_modify hf _ _) rfl rfl

@[simp] theorem given_setState (st : SubState) : (h.setState s st).given = h.given := by
  simp [setState]

@[simp] theorem given_setPhase (p : Phase) : (h.setPhase i p).given = h.given := by simp [setPhase]

@[simp] theorem given_settle (c : Claim) : (h.settle i c).given = h.given :=
  given_onSession h i fun x => by split <;> rfl

@[simp] theorem given_report (r : Report) : (h.report i r).given = h.given := by simp [report]

@[simp] theorem given_setBusy (m : ModalId) (b : Bool) : (h.setBusy m b).given = h.given := rfl

@[simp] theorem given_writeBusy (b : Bool) : (h.writeBusy i b).given = h.given := by
  unfold writeBusy; split <;> simp

@[simp] theorem given_disarm : (h.disarm s).given = h.given := by
  unfold disarm; dsimp only; split <;> simp

@[simp] theorem given_startCountdown (ms : Nat) : (h.startCountdown s ms).given = h.given := by
  unfold startCountdown; dsimp only; split
  · split <;> simp
  · rfl

@[simp] theorem given_arm (d : Nat) : (arm d h s).given = h.given := by simp [arm]

@[simp] theorem given_foldl_arm (d : Nat) (l : List SubId) : (l.foldl (arm d) h).given = h.given := by
  induction l generalizing h with
  | nil => rfl
  | cons a l ih => rw [List.foldl_cons, ih, given_arm]

@[simp] theorem given_armAll : (h.armAll i).given = h.given := given_foldl_arm _ _ _

@[simp] theorem given_giveBack (l : LeaseId) : (h.giveBack s l).given = h.given := rfl

@[simp] theorem given_finish (f : Frame) : (h.finish s f).given = h.given := by
  unfold finish; dsimp only; split <;> simp

@[simp] theorem given_cancel : (h.cancel s).given = h.given := by
  unfold cancel; split <;> simp

@[simp] theorem given_deliver (e : Envelope) : (h.deliver s e).given = h.given := by
  unfold deliver; dsimp only; split
  · rfl
  · split <;> simp

@[simp] theorem given_ring (g : Nat) : (h.ring s g).given = h.given := by
  unfold ring; dsimp only; split
  · rfl
  · split <;> simp

@[simp] theorem given_fail (e : NetworkError) : (h.fail s e).given = h.given := by
  unfold fail; dsimp only; split <;> simp

@[simp] theorem given_settleEvent (e : Envelope) : (h.settleEvent s e).given = h.given := by
  unfold settleEvent; dsimp only; split <;> simp

@[simp] theorem given_settleTimeout : (h.settleTimeout s).given = h.given := by
  unfold settleTimeout; dsimp only; split <;> simp

@[simp] theorem given_reportCancel : (h.reportCancel s).given = h.given := by simp [reportCancel]

@[simp] theorem given_grant (l : LeaseId) : (h.grant s l).given = h.given := by
  unfold grant; dsimp only; split <;> simp

@[simp] theorem given_decline (e : SubscribeError) : (h.decline s e).given = h.given := by
  unfold decline; dsimp only; split <;> simp

@[simp] theorem given_register : (h.register i s).given = h.given := by
  have he : (h.onSession i fun x => if x.members.contains s then x else
      { x with members := x.members ++ [s] }).given = h.given :=
    given_onSession h i fun x => by split <;> rfl
  unfold register; dsimp only; split
  · rw [given_cancel, he]
  · exact he

@[simp] theorem given_release (c : Claim) : (h.release i c).given = h.given := by simp [release]

@[simp] theorem given_releaseStep (l : List SubId) (n : Nat) :
    (h.releaseStep i l n).given = h.given := by
  unfold releaseStep; split <;> split <;> simp

@[simp] theorem given_cancelAll : (h.cancelAll i).given = h.given := by
  unfold cancelAll; dsimp only; rw [given_release]; split <;> simp

@[simp] theorem given_cancelToken (t : TokenId) : (h.cancelToken t).given = h.given := by
  unfold cancelToken; dsimp only; split
  · rfl
  · generalize hh : { h with tokens := _ } = h1
    have hs : h1.given = h.given := by rw [← hh]; rfl
    rw [← hs]
    generalize (h.token t).sessions = l
    clear hh hs
    induction l generalizing h1 with
    | nil => rfl
    | cons a l ih => rw [List.foldl_cons, ih]; split <;> simp

@[simp] theorem given_close (e : Ending) : (h.close i e).given = h.given := by simp [close]

@[simp] theorem given_conclude (e : Ending) : (h.conclude i e).given = h.given := by simp [conclude]

@[simp] theorem given_begin (k : HookId) (arg : Argument) : (h.begin i k arg).given = h.given := by
  simp [begin]

@[simp] theorem given_handleFailure (e : PostError) : (h.handleFailure i e).given = h.given := by
  unfold handleFailure; split <;> simp

@[simp] theorem given_resolve (r : Report) : (h.resolve i r).given = h.given := by
  unfold resolve; dsimp only; split
  · split <;> simp
  · split <;> simp
  · simp
  · simp

@[simp] theorem given_await : (h.await i).given = h.given := by
  unfold await; dsimp only; split
  · split <;> simp
  · split <;> simp
  · simp

@[simp] theorem given_leave (e : Ending) : (h.leave i e).given = h.given := by
  unfold leave; dsimp only
  rw [given_reply, given_pop, given_onSession]
  · split
    · rfl
    · simp
    · split <;> simp
  · exact fun _ => rfl

@[simp] theorem given_drive : (h.drive i).given = h.given := by
  unfold drive; dsimp only; split
  · simp
  · split
    case h_1 | h_7 => split <;> (try split) <;> simp
    case h_4 => split <;> simp
    all_goals simp

@[simp] theorem given_prepare : (h.prepare i).given = h.given := by
  unfold prepare; dsimp only
  rw [given_push, given_onSession]
  · split <;> rfl
  · exact fun _ => rfl

@[simp] theorem given_enter : (h.enter i).given = h.given := by
  unfold enter; dsimp only; split
  · simp
  · split <;> (try split) <;> simp

@[simp] theorem given_drop : (h.drop i).given = h.given := by
  unfold drop; dsimp only; split <;> simp

@[simp] theorem given_configured : (h.configured i).given = h.given := by simp [configured]

@[simp] theorem given_hookReplied (k : HookId) (r : HookReply) :
    (h.hookReplied i k r).given = h.given := by
  unfold hookReplied; dsimp only; split <;> simp

@[simp] theorem given_postReplied (r : PostReply) : (h.postReplied i r).given = h.given := by
  unfold postReplied; dsimp only; split
  · simp
  · split <;> (try split) <;> simp
  · simp

theorem given_subscribe (key : Key) (kind : Kind) :
    (h.subscribe i key kind).given = { h.given with subs := h.given.subs ++ [{}] } := by
  unfold subscribe; dsimp only
  rw [given_register, given_push, given_onSession]
  · simp [given]
  · exact fun _ => rfl

theorem given_setTimeout (ms : Nat) : (h.setTimeout s ms).given =
    { h.given with subs := h.given.subs.modify s fun g => { g with timeout := some ms } } := by
  have ho : (h.onSub s fun sub => { sub with timeout := some ms }).given =
      { h.given with subs := h.given.subs.modify s fun g => { g with timeout := some ms } } := by
    refine Given.ext (map_modify_comm ?_ _ _) rfl rfl rfl
    exact fun _ => rfl
  unfold setTimeout; dsimp only; split
  · rw [given_startCountdown, ho]
  · exact ho

end

/-! ### Moves -/

def giving (h : Hub) : Move → Given
  | .pass moment => { h.given with clock := moment }
  | .handleWith s k =>
    { h.given with subs := h.given.subs.modify s fun g => { g with handler := some k } }
  | .timeoutAfter s ms =>
    { h.given with subs := h.given.subs.modify s fun g => { g with timeout := some ms } }
  | .timeoutWith s ms k =>
    { h.given with subs :=
        h.given.subs.modify s fun g => { g with timeoutHandler := some k, timeout := some ms } }
  | .subscribe _ _ => { h.given with subs := h.given.subs ++ [{}] }
  | .openSession _ _ => { h.given with sessions := h.given.sessions ++ [{}] }
  | .addHook slot k =>
    match h.stack.head? with
    | some (.configuring i) =>
      { h.given with sessions := h.given.sessions.modify i fun g => { g with hooks := g.hooks.add k slot } }
    | _ => h.given
  | .defaultTimeout ms =>
    match h.stack.head? with
    | some (.configuring i) =>
      { h.given with sessions := h.given.sessions.modify i fun g => { g with timeout := some ms } }
    | _ => h.given
  | _ => h.given

theorem given_move {h h' : Hub} {m : Move} (hm : Moved h m h') : h'.given = h.giving m := by
  cases hm
  case subscribe hst => exact given_subscribe _ _ _ _
  case openSession => simp [given, giving]
  case handleWith =>
    refine Given.ext (map_modify_comm ?_ _ _) rfl rfl rfl
    exact fun _ => rfl
  case timeoutAfter => exact given_setTimeout _ _ _
  case timeoutWith s ms k _ =>
    have ho : (h.onSub s fun sub => { sub with timeoutHandler := some k }).given =
        { h.given with subs := h.given.subs.modify s fun g => { g with timeoutHandler := some k } } := by
      refine Given.ext (map_modify_comm ?_ _ _) rfl rfl rfl
      exact fun _ => rfl
    rw [given_setTimeout, ho]
    exact Given.ext (List.modify_modify_eq _ _ _ _) rfl rfl rfl
  case addHook hst =>
    rw [giving, hst]
    refine Given.ext rfl (map_modify_comm ?_ _ _) rfl rfl
    exact fun _ => rfl
  case defaultTimeout hst =>
    rw [giving, hst]
    refine Given.ext rfl (map_modify_comm ?_ _ _) rfl rfl
    exact fun _ => rfl
  case pass | newToken | newModal => rfl
  all_goals simp [giving]

end Hub
end Aftermath
