import Aftermath.Proofs.Wired

/-! What was given last. After a run each handler is the one that was given last to its subscription,
and the hook that stands in for a missing one is the last that was registered for it. -/

namespace Aftermath

def Kind.slot : Kind → Slot
  | .event => .anyEvent
  | .rejection => .anyRejection

/-- A slot for one hook, which stands in for missing handlers. -/
def Slot.isSingle : Slot → Bool
  | .anyEvent | .anyRejection | .anyTimeout => true
  | _ => false

def Hooks.standIn (hs : Hooks) : Slot → Option HookId
  | .anyEvent => hs.anyEvent
  | .anyRejection => hs.anyRejection
  | .anyTimeout => hs.anyTimeout
  | _ => none

theorem Kind.isSingle_slot (kind : Kind) : kind.slot.isSingle := by cases kind <;> rfl

theorem Hooks.standIn_slot (hs : Hooks) (kind : Kind) : hs.standIn kind.slot = hs.forKind kind := by
  cases kind <;> rfl

theorem Hooks.standIn_add (hs : Hooks) (k : HookId) {slot : Slot} (hslot : slot.isSingle) (l : Slot) :
    (hs.add k l).standIn slot = if l = slot then some k else hs.standIn slot := by
  cases slot <;> cases hslot <;> cases l <;> rfl

def Move.handler? (s : SubId) : Move → Option HookId
  | .handleWith t k => if t = s then some k else none
  | _ => none

def Move.timeoutHandler? (s : SubId) : Move → Option HookId
  | .timeoutWith t _ k => if t = s then some k else none
  | _ => none

def Move.timeout? (s : SubId) : Move → Option Nat
  | .timeoutAfter t ms | .timeoutWith t ms _ => if t = s then some ms else none
  | _ => none

namespace Hub

/-- The hook that a move registers in a slot of the session that is being configured. -/
def registered? (h : Hub) (sid : SessionId) (slot : Slot) : Move → Option HookId
  | .addHook l k => if h.stack.head? = some (.configuring sid) ∧ l = slot then some k else none
  | _ => none

def defaultTimeout? (h : Hub) (sid : SessionId) : Move → Option Nat
  | .defaultTimeout ms => if h.stack.head? = some (.configuring sid) then some ms else none
  | _ => none

def latest {α : Type} (give : Hub → Move → Option α) (h : Hub) : List Move → Option α
  | [] => none
  | m :: ms => ((h.move? m).bind fun a => latest give a ms).or (give h m)

section
variable {h h' : Hub} {m : Move} {ms : List Move} {s : SubId} {sid : SessionId}

/-- A value that every move replaces by what it gives is the latest after a run. -/
theorem latest_run {α : Type} {give : Hub → Move → Option α} {v : Hub → Option α}
    (step : ∀ {a b m}, Reachable a → Moved a m b → v b = (give a m).or (v a))
    (hr : Reachable h) (hrun : h.run? ms = some h') :
    v h' = (latest give h ms).or (v h) := by
  induction ms generalizing h with
  | nil => cases hrun; rfl
  | cons m ms ih =>
    obtain ⟨a, hm, hrun⟩ := Option.bind_eq_some_iff.1 hrun
    rw [ih (hr.later (Later.refl.move hm)) hrun, step hr (moved_of_move? hm), latest, hm,
      Option.bind_some, Option.or_assoc]

theorem given_sub (h : Hub) (s : SubId) : h.given.subs.getD s {} = (h.sub s).gifts := by
  by_cases hs : s < h.subs.length
  · simp [given, sub, hs]
  · simp only [given, sub, List.getD_eq_getElem?_getD, List.getElem?_map,
      List.getElem?_eq_none (Nat.le_of_not_lt hs)]
    rfl

theorem given_session (h : Hub) (sid : SessionId) :
    h.given.sessions.getD sid {} = (h.session sid).gifts := by
  by_cases hs : sid < h.sessions.length
  · simp [given, session, hs]
  · simp [given, session, hs]; exact ⟨rfl, rfl⟩

theorem getD_append_default {α : Type} (l : List α) (d : α) (i : Nat) :
    (l ++ [d]).getD i d = l.getD i d := by
  rcases Nat.lt_trichotomy i l.length with hi | rfl | hi
  · simp [List.getElem?_append_left hi]
  · simp
  · rw [List.getD_eq_getElem?_getD, List.getD_eq_getElem?_getD,
      List.getElem?_eq_none (by simpa using Nat.succ_le_of_lt hi), List.getElem?_eq_none (Nat.le_of_lt hi)]

/-- A move gives a subscription its handlers and its timeout, or leaves it those it had. -/
theorem gifts_move (hm : Moved h m h') (s : SubId) : (h'.sub s).gifts =
    ⟨(m.handler? s).or (h.sub s).handler, (m.timeoutHandler? s).or (h.sub s).timeoutHandler,
      (m.timeout? s).or (h.sub s).timeout⟩ := by
  have hlen : h.given.subs.length = h.subs.length := by simp [given]
  rw [← given_sub, given_move hm]
  cases hm
  case handleWith t k ht =>
    rw [giving, getD_modify _ _ _ _ _ (by rw [hlen]; exact ht), given_sub]
    by_cases hs : t = s
    · subst hs; simp [Move.handler?, Move.timeoutHandler?, Move.timeout?]
    · have hs' : ¬ s = t := fun e => hs e.symm
      simp [Move.handler?, Move.timeoutHandler?, Move.timeout?, hs, hs']
  case timeoutAfter t _ ht | timeoutWith t _ _ ht =>
    rw [giving, getD_modify _ _ _ _ _ (by rw [hlen]; exact ht), given_sub]
    by_cases hs : t = s
    · subst hs; simp [Move.handler?, Move.timeoutHandler?, Move.timeout?]
    · have hs' : ¬ s = t := fun e => hs e.symm
      simp [Move.handler?, Move.timeoutHandler?, Move.timeout?, hs, hs']
  case subscribe =>
    rw [giving, getD_append_default, given_sub]; rfl
  case addHook hst | defaultTimeout hst => simp only [giving, hst, List.head?_cons]; exact given_sub h s
  all_goals exact given_sub h s

theorem lt_of_configuring (ha : Reachable h) {i : SessionId} {rest : List Frame}
    (hst : h.stack = .configuring i :: rest) : i < h.given.sessions.length := by
  rw [show h.given.sessions.length = h.sessions.length by simp [given]]
  exact ha.wired.session_lt hst rfl

/-- A move registers a hook that stands in, or leaves the one there was. -/
theorem standIn_move (ha : Reachable h) (hm : Moved h m h') {slot : Slot} (hslot : slot.isSingle) :
    (h'.session sid).hooks.standIn slot =
      (h.registered? sid slot m).or ((h.session sid).hooks.standIn slot) := by
  rw [show (h'.session sid).hooks = _ from congrArg Session.Gifts.hooks (given_session h' sid).symm,
    given_move hm]
  cases hm
  case addHook i rest l k hst =>
    simp only [giving, hst, List.head?_cons, registered?]
    rw [getD_modify _ _ _ _ _ (lt_of_configuring ha hst), given_session]
    by_cases hs : sid = i
    · subst hs
      rw [if_pos rfl, Hooks.standIn_add _ _ hslot]
      simp only [true_and]
      split <;> rfl
    · have hs' : ¬ i = sid := fun e => hs e.symm
      simp [hs, hs']
  case defaultTimeout i rest ms hst =>
    simp only [giving, hst, List.head?_cons]
    rw [getD_modify _ _ _ _ _ (lt_of_configuring ha hst), given_session]
    split <;> rfl
  case openSession => rw [giving, getD_append_default, given_session]; rfl
  all_goals exact congrArg (fun g : Session.Gifts => g.hooks.standIn slot) (given_session h sid)

/-- A move gives a session its default timeout, or leaves it the one it had. -/
theorem defaultTimeout_move (ha : Reachable h) (hm : Moved h m h') :
    (h'.session sid).timeout = (h.defaultTimeout? sid m).or (h.session sid).timeout := by
  rw [show (h'.session sid).timeout = _ from congrArg Session.Gifts.timeout (given_session h' sid).symm,
    given_move hm]
  cases hm
  case addHook i rest l k hst =>
    simp only [giving, hst, List.head?_cons]
    rw [getD_modify _ _ _ _ _ (lt_of_configuring ha hst), given_session]
    split <;> rfl
  case defaultTimeout i rest ms hst =>
    simp only [giving, hst, List.head?_cons, defaultTimeout?]
    rw [getD_modify _ _ _ _ _ (lt_of_configuring ha hst), given_session]
    by_cases hs : sid = i
    · subst hs; simp
    · have hs' : ¬ i = sid := fun e => hs e.symm
      simp [hs, hs']
  case openSession => rw [giving, getD_append_default, given_session]; rfl
  all_goals exact congrArg Session.Gifts.timeout (given_session h sid)

/-- The settings are never changed. -/
theorem settings_move (hm : Moved h m h') : h'.settings = h.settings := by
  rw [show h'.settings = _ from congrArg Given.settings (given_move hm)]
  unfold giving
  split <;> first | rfl | (split <;> rfl)

theorem Later.settings (hl : Later h h') : h'.settings = h.settings := by
  induction hl with
  | refl => rfl
  | move _ hm ih => exact (settings_move (moved_of_move? hm)).trans ih

/-- Time passes only by a move of its own. -/
theorem clock_move (hm : Moved h m h') : h'.clock = h.clock ∨ m = .pass h'.clock := by
  rw [show h'.clock = _ from congrArg Given.clock (given_move hm)]
  unfold giving
  split
  · exact .inr rfl
  all_goals first | exact .inl rfl | (split <;> exact .inl rfl)

end

/-! ### Runs from nothing -/

def lastHandler (settings : Settings) (ms : List Move) (s : SubId) : Option HookId :=
  latest (fun _ m => m.handler? s) { settings } ms

def lastTimeoutHandler (settings : Settings) (ms : List Move) (s : SubId) : Option HookId :=
  latest (fun _ m => m.timeoutHandler? s) { settings } ms

def lastTimeout (settings : Settings) (ms : List Move) (s : SubId) : Option Nat :=
  latest (fun _ m => m.timeout? s) { settings } ms

def lastDefaultTimeout (settings : Settings) (ms : List Move) (sid : SessionId) : Option Nat :=
  latest (fun h m => h.defaultTimeout? sid m) { settings } ms

def lastRegistered (settings : Settings) (ms : List Move) (sid : SessionId) (slot : Slot) :
    Option HookId :=
  latest (fun h m => h.registered? sid slot m) { settings } ms

section
variable {settings : Settings} {h : Hub} {ms : List Move}

/-- After a run from nothing the handlers of a subscription are those it was given last. -/
theorem handler_eq_last (hrun : run? { settings } ms = some h) (s : SubId) :
    (h.sub s).handler = lastHandler settings ms s := by
  rw [latest_run (v := fun h => (h.sub s).handler)
    (fun _ hm => congrArg Subscription.Gifts.handler (gifts_move hm s)) ⟨settings, .refl⟩ hrun]
  exact Option.or_none

theorem timeoutHandler_eq_last (hrun : run? { settings } ms = some h) (s : SubId) :
    (h.sub s).timeoutHandler = lastTimeoutHandler settings ms s := by
  rw [latest_run (v := fun h => (h.sub s).timeoutHandler)
    (fun _ hm => congrArg Subscription.Gifts.timeoutHandler (gifts_move hm s)) ⟨settings, .refl⟩ hrun]
  exact Option.or_none

/-- The timeout of a subscription is the one it was given last. -/
theorem timeout_eq_last (hrun : run? { settings } ms = some h) (s : SubId) :
    (h.sub s).timeout = lastTimeout settings ms s := by
  rw [latest_run (v := fun h => (h.sub s).timeout)
    (fun _ hm => congrArg Subscription.Gifts.timeout (gifts_move hm s)) ⟨settings, .refl⟩ hrun]
  exact Option.or_none

/-- The default timeout of a session is the one it was given last. -/
theorem defaultTimeout_eq_last (hrun : run? { settings } ms = some h) (sid : SessionId) :
    (h.session sid).timeout = lastDefaultTimeout settings ms sid := by
  rw [latest_run (v := fun h => (h.session sid).timeout)
    (fun ha hm => defaultTimeout_move ha hm) ⟨settings, .refl⟩ hrun]
  exact Option.or_none

/-- The hook that stands in for handlers is the one that was registered last. -/
theorem standIn_eq_last (hrun : run? { settings } ms = some h) (sid : SessionId) {slot : Slot}
    (hslot : slot.isSingle) :
    (h.session sid).hooks.standIn slot = lastRegistered settings ms sid slot := by
  rw [latest_run (v := fun h => (h.session sid).hooks.standIn slot)
    (fun ha hm => standIn_move ha hm hslot) ⟨settings, .refl⟩ hrun]
  cases slot <;> cases hslot <;> exact Option.or_none

end
end Hub
end Aftermath
