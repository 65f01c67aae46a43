import Aftermath.Proofs.Quiet.Abort
import Aftermath.Proofs.Flight

/-! What can be done to subscriptions that share the gate of a session. Each operation is carried
through while the transport is quiet, and none rewires the subscriptions. -/

namespace Aftermath.Hub

/-! ### Operations -/

/-- What can be done to the subscriptions of a session and to its registry. -/
inductive Operation where
  | deliver (s : SubId) (e : Envelope)
  | fail (s : SubId) (e : NetworkError)
  | expire (s : SubId)
  | cancel (s : SubId)
  | register (s : SubId)
  | decline (s : SubId) (e : SubscribeError)
  | cancelAll
  | release
deriving DecidableEq, Repr

def Operation.sub? : Operation → Option SubId
  | .deliver s _ | .fail s _ | .expire s | .cancel s | .register s | .decline s _ => some s
  | .cancelAll | .release => none

/-- A countdown runs out, whenever it was to ring. -/
def expire (h : Hub) (s : SubId) : Hub :=
  if (h.sub s).isActive then (h.setState s .timedOut).finish s (.settlingTimeout s)
  else h.reply .nothing

/-- An alarm that is pending lets its countdown run out. -/
theorem ring_eq_expire {h : Hub} {s : SubId} {g : Nat} {c : Countdown}
    (hs : s < h.subs.length) (hc : (h.sub s).countdown.ring? g = some c) :
    h.ring s g = (h.onSub s fun sub => { sub with countdown := c }).expire s := by
  have ha : ((h.onSub s fun sub => { sub with countdown := c }).sub s).isActive =
      (h.sub s).isActive := by rw [sub_onSub _ _ _ hs, if_pos rfl]; rfl
  unfold ring expire
  simp only [hc, ha]

def Operation.call (h : Hub) (sid : SessionId) : Operation → Hub
  | .deliver s e => h.deliver s e
  | .fail s e => h.fail s e
  | .expire s => h.expire s
  | .cancel s => h.cancel s
  | .register s => h.register sid s
  | .decline s e => h.decline s e
  | .cancelAll => h.cancelAll sid
  | .release => h.release sid .ended

/-- Whether an operation that led from one hub to another decided the session: a delivery or a failure
says so, and a countdown that ran out has found the session undecided and left it decided. -/
def Operation.decided (h a : Hub) (sid : SessionId) : Operation → Bool
  | .deliver _ _ | .fail _ _ => a.answer == .bool true
  | .expire _ => !(h.session sid).isSettled && (a.session sid).isSettled
  | _ => false

/-- The hub comes from another one by operations, each carried through before the next begins; so many
of them decided the session. -/
inductive Performs (sid : SessionId) : Hub → List Operation → Hub → Nat → Prop where
  | nil {h : Hub} : Performs sid h [] h 0
  | snoc {h a b : Hub} {ops : List Operation} {op : Operation} {n : Nat} :
      Performs sid h ops a n → (∀ s, op.sub? = some s → s < a.subs.length) →
      Returns a.stack (op.call a sid) b →
      Performs sid h (ops ++ [op]) b (n + if op.decided a b sid then 1 else 0)

/-! ### Operations carried through -/

/-- A subscription takes a new state and lets go of its countdown and its lease. -/
def leaving (h : Hub) (s : SubId) (st : SubState) : Hub := (h.setState s st).letGo s

def deliverQuietly (h : Hub) (s : SubId) (e : Envelope) : Hub :=
  if e.key ≠ (h.sub s).key then (h.note (.wrongKey (h.sub s).key e.key)).reply (.bool false)
  else if (h.sub s).isActive then (h.leaving s .fired).settleEvent s e
  else (h.note (.tooLate (h.sub s).key (h.sub s).state)).reply (.bool false)

def expireQuietly (h : Hub) (s : SubId) : Hub :=
  if (h.sub s).isActive then (h.leaving s .timedOut).settleTimeout s else h.reply .nothing

def enrol (h : Hub) (sid : SessionId) (s : SubId) : Hub :=
  h.onSession sid fun x =>
    if x.members.contains s then x else { x with members := x.members ++ [s] }

def registerQuietly (h : Hub) (sid : SessionId) (s : SubId) : Hub :=
  if (h.session sid).isSettled then (h.enrol sid s).cancelQuietly s else h.enrol sid s

def Operation.done (h : Hub) (sid : SessionId) : Operation → Hub
  | .deliver s e => h.deliverQuietly s e
  | .fail s e => h.fail s e
  | .expire s => h.expireQuietly s
  | .cancel s => h.cancelQuietly s
  | .register s => h.registerQuietly sid s
  | .decline s e => h.decline s e
  | .cancelAll => h.withdrawn sid
  | .release => h.released sid .ended

section
variable {h a b : Hub} {sid : SessionId} {s t : SubId} {st : SubState} {op : Operation}

@[simp] theorem stack_leaving : (h.leaving s st).stack = h.stack := by
  rw [leaving, stack_letGo]; rfl

theorem session_leaving : (h.leaving s st).session sid = h.session sid :=
  session_eq (by rw [leaving, sessions_letGo]; rfl) sid

theorem sub_leaving (hs : s < h.subs.length) : (h.leaving s st).sub t =
    if t = s then
      { h.sub t with state := st, countdown := (h.sub t).countdown.cancel, lease := none }
    else h.sub t := by
  rw [leaving, sub_letGo (by simpa [setState] using hs), sub_setState hs]
  split <;> rfl

theorem size_leaving : (h.leaving s st).size = h.size := by
  have hl : (h.leaving s st).subs.length = h.subs.length := by
    rw [leaving, subs_letGo (.settlingTimeout s)]
    exact congrArg Prod.fst (size_of_given (by simp))
  have hs : (h.leaving s st).sessions.length = h.sessions.length := by
    rw [leaving, sessions_letGo]; rfl
  exact Prod.ext hl hs

theorem quietStep_settlingEvent (e : Envelope) :
    (h.push (.settlingEvent s e)).quietStep = h.settleEvent s e := rfl

theorem quietStep_settlingTimeout :
    (h.push (.settlingTimeout s)).quietStep = h.settleTimeout s := rfl

theorem deliver_returns (h : Hub) (s : SubId) (e : Envelope) :
    Returns h.stack (h.deliver s e) (h.deliverQuietly s e) := by
  unfold deliver deliverQuietly; dsimp only
  split
  · exact .done rfl
  · split
    · refine finish_returns (Nat.le_refl _) (.step (by simp) ?_)
      rw [quietStep_settlingEvent]
      exact .done ((stack_settleEvent _ _ e).trans stack_leaving)
    · exact .done rfl

theorem expire_returns (h : Hub) (s : SubId) :
    Returns h.stack (h.expire s) (h.expireQuietly s) := by
  unfold expire expireQuietly
  split
  · refine finish_returns (Nat.le_refl _) (.step (by simp) ?_)
    rw [quietStep_settlingTimeout]
    exact .done ((stack_settleTimeout _ _).trans stack_leaving)
  · exact .done rfl

theorem register_returns (h : Hub) (sid : SessionId) (s : SubId) :
    Returns h.stack (h.register sid s) (h.registerQuietly sid s) := by
  unfold register registerQuietly; dsimp only
  split
  · exact cancel_returns (h.enrol sid s) s
  · exact .done rfl

/-- Every operation is carried through. -/
theorem Operation.returns (h : Hub) (sid : SessionId) (op : Operation) :
    Returns h.stack (op.call h sid) (op.done h sid) := by
  cases op with
  | deliver s e => exact deliver_returns h s e
  | fail s e => exact .done (stack_fail h s e)
  | expire s => exact expire_returns h s
  | cancel s => exact cancel_returns h s
  | register s => exact register_returns h sid s
  | decline s e => exact .done (stack_decline _ _ e)
  | cancelAll => exact withdrawn_returns
  | release => exact released_returns h sid .ended

end

/-! ### What no operation changes -/

def wiring (h : Hub) : List (SessionId × Key) × List (List SubId) :=
  (h.subs.map fun x => (x.home, x.key), h.sessions.map (·.members))

section
variable (h : Hub) (i sid : SessionId) (s : SubId)

theorem wiring_onSub {f : Subscription → Subscription}
    (hf : ∀ x, ((f x).home, (f x).key) = (x.home, x.key)) : (h.onSub s f).wiring = h.wiring :=
  Prod.ext (map_modify hf _ _) rfl

theorem wiring_onSession {f : Session → Session} (hf : ∀ x, (f x).members = x.members) :
    (h.onSession i f).wiring = h.wiring :=
  Prod.ext rfl (map_modify hf _ _)

@[simp] theorem wiring_note (x : Happening) : (h.note x).wiring = h.wiring := rfl

@[simp] theorem wiring_reply (a : Answer) : (h.reply a).wiring = h.wiring := rfl

@[simp] theorem wiring_setState (st : SubState) : (h.setState s st).wiring = h.wiring :=
  wiring_onSub h s fun _ => rfl

@[simp] theorem wiring_settle (c : Claim) : (h.settle i c).wiring = h.wiring :=
  wiring_onSession h i fun x => by split <;> rfl

@[simp] theorem wiring_report (r : Report) : (h.report i r).wiring = h.wiring :=
  wiring_onSession h i fun _ => rfl

@[simp] theorem wiring_disarm : (h.disarm s).wiring = h.wiring := by
  unfold disarm; dsimp only
  split
  · exact wiring_onSub h s fun _ => rfl
  · exact wiring_onSub h s fun _ => rfl

@[simp] theorem wiring_letGo : (h.letGo s).wiring = h.wiring := by
  unfold letGo; dsimp only
  split
  · exact wiring_disarm h s
  · exact (wiring_onSub (h.disarm s) s (f := fun x => { x with lease := none }) fun _ => rfl).trans
      (wiring_disarm h s)

@[simp] theorem wiring_leaving (st : SubState) : (h.leaving s st).wiring = h.wiring := by
  simp [leaving]

@[simp] theorem wiring_settleEvent (e : Envelope) : (h.settleEvent s e).wiring = h.wiring := by
  unfold settleEvent; dsimp only; split <;> simp

@[simp] theorem wiring_settleTimeout : (h.settleTimeout s).wiring = h.wiring := by
  unfold settleTimeout; dsimp only; split <;> simp

@[simp] theorem wiring_deliverQuietly (e : Envelope) : (h.deliverQuietly s e).wiring = h.wiring := by
  unfold deliverQuietly; split
  · simp
  · split <;> simp

@[simp] theorem wiring_expireQuietly : (h.expireQuietly s).wiring = h.wiring := by
  unfold expireQuietly; split <;> simp

@[simp] theorem wiring_fail (e : NetworkError) : (h.fail s e).wiring = h.wiring := by
  unfold fail; dsimp only; split <;> simp

@[simp] theorem wiring_cancelQuietly : (h.cancelQuietly s).wiring = h.wiring := by
  unfold cancelQuietly; split <;> simp [reportCancel]

@[simp] theorem wiring_decline (e : SubscribeError) : (h.decline s e).wiring = h.wiring := by
  have he : ((h.note (.ungranted s (h.sub s).key (h.sub s).kind e)).onSub s
      fun sub => { sub with error := some e }).wiring = h.wiring := wiring_onSub _ s fun _ => rfl
  unfold decline; dsimp only; split <;> simp [he]

@[simp] theorem wiring_sweep (l : List SubId) (n : Nat) : (sweep sid l n h).wiring = h.wiring := by
  induction l generalizing n h with
  | nil => rw [sweep_nil]; split <;> rfl
  | cons s l ih =>
    cases ha : (h.sub s).isActive with
    | true => rw [sweep_cons_of_active ha, ih, wiring_cancelQuietly]
    | false => rw [sweep_cons_of_inactive ha, ih]

@[simp] theorem wiring_released (c : Claim) : (h.released sid c).wiring = h.wiring := by
  simp [released]

@[simp] theorem wiring_withdrawn : (h.withdrawn sid).wiring = h.wiring := by
  rw [withdrawn, wiring_released]
  unfold revoke
  split
  · rfl
  · exact wiring_onSession h sid fun _ => rfl

/-- Only a registration changes the wiring, by the subscription it is about. -/
theorem Operation.wiring_done (op : Operation) : (op.done h sid).wiring = h.wiring ∨
    ∃ s, op.sub? = some s ∧ (op.done h sid).wiring = (h.enrol sid s).wiring := by
  cases op
  case register s =>
    refine .inr ⟨s, rfl, ?_⟩
    unfold Operation.done registerQuietly; dsimp only
    split <;> simp
  all_goals exact .inl (by simp [Operation.done])

end

end Aftermath.Hub
