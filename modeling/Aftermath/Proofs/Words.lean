import Aftermath.Proofs.Verdict

/-! Words. All that is ever heard of a session is a word: first its opening, up to the await, and then
at most one path, by which its outcome is told. -/

namespace Aftermath

def played (ks : List HookId) (arg : Argument) : List Beat :=
  ks.flatMap fun k => [.begins k arg, .ends k]

def Beat.hook? : Beat → Option HookId
  | .begins k _ => some k
  | _ => none

def begun (b : List Beat) : List HookId := b.filterMap Beat.hook?

/-- The hook that begins with a beat, with what it is told of the outcome; a hook that is called with
nothing is told of none. -/
def Beat.told? : Beat → Option (HookId × Argument)
  | .begins k arg => if arg = .nothing then none else some (k, arg)
  | _ => none

def told (b : List Beat) : List (HookId × Argument) := b.filterMap Beat.told?

namespace Hooks

def prepared (hs : Hooks) : List Beat := played hs.beforePost .nothing

def acknowledged (hs : Hooks) : List Beat :=
  hs.prepared ++ [.posts, .acknowledged] ++ played hs.acknowledge .nothing

def refused (hs : Hooks) (e : PostError) : List Beat := hs.prepared ++ [.posts, .refused e]

/-- What is heard of a session before it takes notice of its outcome. -/
inductive Opening (hs : Hooks) : List Beat → Prop where
  | untouched : Opening hs []
  | prepared : Opening hs hs.prepared
  | acknowledged : Opening hs hs.acknowledged
  | refused {e : PostError} : Opening hs (hs.refused e)

end Hooks

/-- Hooks run one after another after some beats: those that are left, the one that has begun and
not ended, and what has been heard so far. -/
inductive Playing (b : List Beat) (all : List HookId) (arg : Argument) :
    List HookId → Option (HookId × Argument) → List Beat → Prop where
  | rests {done rest} : all = done ++ rest → Playing b all arg rest none (b ++ played done arg)
  | runs {done k rest} : all = done ++ k :: rest →
      Playing b all arg rest (some (k, arg)) (b ++ played done arg ++ [.begins k arg])

section
variable {b c : List Beat} {all ks : List HookId} {arg a : Argument} {k : HookId}

theorem played_append (l m : List HookId) : played (l ++ m) arg = played l arg ++ played m arg :=
  List.flatMap_append

theorem begun_played (ks : List HookId) : begun (played ks arg) = ks := by
  induction ks with
  | nil => rfl
  | cons k ks ih =>
    show k :: begun (played ks arg) = _
    rw [ih]

theorem begun_append (b c : List Beat) : begun (b ++ c) = begun b ++ begun c :=
  List.filterMap_append

theorem told_append (b c : List Beat) : told (b ++ c) = told b ++ told c := List.filterMap_append

theorem mem_told : (k, arg) ∈ told b ↔ .begins k arg ∈ b ∧ arg ≠ .nothing := by
  rw [told, List.mem_filterMap]
  constructor
  · rintro ⟨x, hx, he⟩
    cases x <;> simp only [Beat.told?, Option.ite_none_left_eq_some, Option.some.injEq, Prod.mk.injEq,
      reduceCtorEq] at he
    obtain ⟨hn, rfl, rfl⟩ := he
    exact ⟨hx, hn⟩
  · exact fun ⟨hx, hn⟩ => ⟨_, hx, if_neg hn⟩

theorem told_played_nothing (ks : List HookId) : told (played ks .nothing) = [] := by
  induction ks with
  | nil => rfl
  | cons k ks ih => exact ih

theorem told_played (ha : arg ≠ .nothing) (ks : List HookId) :
    told (played ks arg) = ks.map (·, arg) := by
  induction ks with
  | nil => rfl
  | cons k ks ih =>
    have hk : Beat.told? (.begins k arg) = some (k, arg) := if_neg ha
    rw [List.map_cons, ← ih]
    exact List.filterMap_cons_some hk

theorem Playing.start (b : List Beat) (all : List HookId) (arg : Argument) :
    Playing b all arg all none b := by
  have hp : Playing b all arg all none (b ++ played [] arg) := .rests rfl
  rwa [show b ++ played [] arg = b from List.append_nil b] at hp

theorem Playing.begins (hp : Playing b all arg (k :: ks) none c) :
    Playing b all arg ks (some (k, arg)) (c ++ [.begins k arg]) := by
  cases hp with
  | rests he => exact .runs he

theorem Playing.ends (hp : Playing b all arg ks (some (k, a)) c) :
    Playing b all arg ks none (c ++ [.ends k]) := by
  cases hp with
  | @runs done _ _ he =>
    have hq : Playing b all arg ks none (b ++ played (done ++ [k]) arg) :=
      .rests (by rw [he, List.append_assoc]; rfl)
    rw [played_append] at hq
    simpa [played] using hq

/-- Hooks that have all run have been heard in full. -/
theorem Playing.full (hp : Playing b all arg [] none c) : c = b ++ played all arg := by
  cases hp with
  | rests he => rw [he, List.append_nil]

theorem Playing.prefix_full {r : Option (HookId × Argument)} (hp : Playing b all arg ks r c) :
    c <+: b ++ played all arg := by
  cases hp with
  | rests he =>
    rw [he, played_append, ← List.append_assoc]
    exact List.prefix_append _ _
  | @runs done k _ he =>
    rw [he, played_append, ← List.append_assoc]
    exact (List.prefix_append_right_inj _).2 ⟨.ends k :: played ks arg, rfl⟩

end

/-- Before a session takes notice of its outcome nobody has been told of it. -/
theorem Hooks.Opening.told {hs : Hooks} {o : List Beat} (ho : hs.Opening o) : told o = [] := by
  have hp : Aftermath.told hs.prepared = [] := told_played_nothing _
  cases ho with
  | untouched => rfl
  | prepared => exact hp
  | acknowledged =>
    rw [Hooks.acknowledged, told_append, told_append, hp, told_played_nothing]; rfl
  | refused => rw [Hooks.refused, told_append, hp]; rfl

/-- An opening in which the post is acknowledged has all its hooks. -/
theorem Hooks.Opening.of_acknowledged {hs : Hooks} {o : List Beat} (ho : hs.Opening o)
    (ha : .acknowledged ∈ o) : o = hs.acknowledged := by
  have hn : Beat.acknowledged ∉ hs.prepared := by
    simp [Hooks.prepared, played]
  cases ho with
  | untouched => cases ha
  | prepared => exact absurd ha hn
  | acknowledged => rfl
  | refused =>
    rcases List.mem_append.1 ha with ha | ha
    · exact absurd ha hn
    · simp at ha

namespace Hub

/-- A subscription has been registered with a session it was not made for. -/
def Lent (h : Hub) (s : SubId) : Prop := ∃ i, i ≠ (h.sub s).home ∧ s ∈ (h.session i).members

/-- The hooks that tell the outcome of a session after its opening, and what they are told. -/
inductive Path (h : Hub) (sid : SessionId) (hs : Hooks) (o : List Beat) :
    List HookId → Argument → Prop where
  | silent : Path h sid hs o [] .nothing
  | event {s : SubId} {e : Envelope} {a : Hub} : (h.session sid).claim = some (.fired s e) →
      Later a h →
      Path h sid hs o ((a.sub s).handler.or (hs.forKind (h.sub s).kind)).toList (.event e)
  | timeout {s : SubId} {a : Hub} : (h.session sid).claim = some (.timedOut s) → Later a h →
      o = hs.acknowledged ∨ Lent h s →
      Path h sid hs o ((a.sub s).timeoutHandler.or hs.anyTimeout).toList (.timeout (h.sub s).key)
  | server {e : ServerError} : o = hs.refused (.server e) →
      Path h sid hs o hs.serverError (.server e)
  | network {e : NetworkError} :
      o = hs.refused (.network e) ∨ (h.session sid).claim = some (.lost e) →
      Path h sid hs o hs.networkError (.network e)

/-- All that is ever heard of a session, the hooks of its path being `all`. -/
def Word (h : Hub) (sid : SessionId) (hs : Hooks) (all : List HookId) (w : List Beat) : Prop :=
  ∃ o arg, hs.Opening o ∧ Path h sid hs o all arg ∧ w = o ++ played all arg

/-- What has been heard of a session that was cut short. -/
def CutShort (h : Hub) (sid : SessionId) (hs : Hooks) (b : List Beat) : Prop :=
  ∃ all w, Word h sid hs all w ∧ b <+: w

section
variable {h h' : Hub} {sid : SessionId} {m : Move} {s : SubId}
variable {hs : Hooks} {all : List HookId} {o b w : List Beat} {arg : Argument}

/-- The hooks of a path are told of the outcome. -/
theorem Path.told (hp : Path h sid hs o all arg) (hn : all ≠ []) : arg ≠ .nothing := by
  rintro rfl
  cases hp with
  | silent => exact hn rfl

theorem Word.of_opening (ho : hs.Opening b) : Word h sid hs [] b :=
  ⟨b, .nothing, ho, .silent, (List.append_nil b).symm⟩

theorem CutShort.of_prefix_opening {o : List Beat} (ho : hs.Opening o) (hb : b <+: o) :
    CutShort h sid hs b :=
  ⟨[], o, .of_opening ho, hb⟩

theorem CutShort.of_opening (ho : hs.Opening b) : CutShort h sid hs b :=
  .of_prefix_opening ho List.prefix_rfl

/-- The hooks of a word are the registered ones, each in its turn. -/
theorem Word.begun (hw : Word h sid hs all w) :
    (begun w).Sublist (hs.beforePost ++ hs.acknowledge ++ all) := by
  obtain ⟨o, arg, ho, -, rfl⟩ := hw
  rw [begun_append, begun_played]
  refine List.Sublist.append ?_ (List.Sublist.refl all)
  cases ho with
  | untouched => exact List.nil_sublist _
  | prepared =>
    rw [Hooks.prepared, begun_played]
    exact List.sublist_append_left _ _
  | acknowledged =>
    rw [Hooks.acknowledged, Hooks.prepared, begun_append, begun_append, begun_played, begun_played]
    simp [Aftermath.begun, Beat.hook?]
  | refused =>
    rw [Hooks.refused, Hooks.prepared, begun_append, begun_played]
    simp [Aftermath.begun, Beat.hook?]

theorem Lent.move (ha : Reachable h) (hm : Moved h m h') (hl : Lent h s) : Lent h' s := by
  obtain ⟨i, hne, hin⟩ := hl
  refine ⟨i, ?_, members_move ha hm hin⟩
  rw [(sub_fixed ha.wired hm (ha.wired.members i s hin)).1]
  exact hne

theorem Path.move (ha : Reachable h) (hv : h.move? m = some h') (hp : Path h sid hs o all arg) :
    Path h' sid hs o all arg := by
  have hm := moved_of_move? hv
  cases hp with
  | silent => exact .silent
  | @event s e _ hc hl =>
    have hin := ((ha.backed sid).fired s e hc).1
    rw [← (sub_fixed ha.wired hm (ha.wired.members sid s hin)).2.2]
    exact .event (claim_move ha hm hc) (hl.move hv)
  | @timeout s _ hc hl ho =>
    have hin := ((ha.backed sid).timedOut s hc).1
    rw [← (sub_fixed ha.wired hm (ha.wired.members sid s hin)).2.1]
    exact .timeout (claim_move ha hm hc) (hl.move hv) (ho.imp id (Lent.move ha hm))
  | server ho => exact .server ho
  | network ho => exact .network (ho.imp id (claim_move ha hm))

theorem Word.move (ha : Reachable h) (hm : h.move? m = some h') (hw : Word h sid hs all w) :
    Word h' sid hs all w := by
  obtain ⟨o, arg, ho, hp, he⟩ := hw
  exact ⟨o, arg, ho, hp.move ha hm, he⟩

theorem CutShort.move (ha : Reachable h) (hm : h.move? m = some h') (hc : CutShort h sid hs b) :
    CutShort h' sid hs b := by
  obtain ⟨all, w, hw, hb⟩ := hc
  exact ⟨all, w, hw.move ha hm, hb⟩

end
end Hub
end Aftermath
