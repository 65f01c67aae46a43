import Aftermath.Proofs.Size
import Aftermath.Proofs.SubView
import Aftermath.Proofs.View

/-! What lies on what. A hook and a post lie directly on the session that runs them, a request to
the transport directly on the configuration of the subscription's session, and every frame is about
sessions and subscriptions that exist. -/

namespace Aftermath

/-- What a frame needs: that what it is about exists, and for some frames the frame below. -/
def Frame.LiesOn (h : Hub) (below : List Frame) : Frame → Prop
  | .settlingEvent s _ | .settlingTimeout s | .reportingCancel s => s < h.subs.length
  | .subscribing s => s < h.subs.length ∧ below.head? = some (.configuring (h.sub s).home)
  | .hook i _ _ | .posting i => i < h.sessions.length ∧ below.head? = some (.driving i)
  | .releasing i rest _ => i < h.sessions.length ∧ ∀ s ∈ rest, s < h.subs.length
  | .entering i | .driving i | .configuring i => i < h.sessions.length
  | .unsubscribing _ => True

namespace Hub

def Laid (h : Hub) : List Frame → Prop
  | [] => True
  | f :: below => f.LiesOn h below ∧ Laid h below

section
variable {h h' : Hub} {f : Frame} {l below : List Frame} {i : SessionId} {s : SubId}

theorem Laid.append_right {above : List Frame} (hl : h.Laid (above ++ l)) : h.Laid l := by
  induction above with
  | nil => exact hl
  | cons f above ih => exact ih hl.2

/-- Frames stay laid while subscriptions and sessions are added and none changes its home. -/
theorem Laid.mono (hl : h.Laid l) (hsub : h.subs.length ≤ h'.subs.length)
    (hses : h.sessions.length ≤ h'.sessions.length)
    (hhome : ∀ s < h.subs.length, (h'.sub s).home = (h.sub s).home) : h'.Laid l := by
  induction l with
  | nil => trivial
  | cons f l ih =>
    refine ⟨?_, ih hl.2⟩
    have hf := hl.1
    cases f with
    | settlingEvent | settlingTimeout | reportingCancel => exact Nat.lt_of_lt_of_le hf hsub
    | subscribing s => exact ⟨Nat.lt_of_lt_of_le hf.1 hsub, by rw [hhome s hf.1]; exact hf.2⟩
    | hook | posting => exact ⟨Nat.lt_of_lt_of_le hf.1 hses, hf.2⟩
    | releasing =>
      exact ⟨Nat.lt_of_lt_of_le hf.1 hses, fun s hs => Nat.lt_of_lt_of_le (hf.2 s hs) hsub⟩
    | entering | driving | configuring => exact Nat.lt_of_lt_of_le hf hses
    | unsubscribing => trivial

theorem Laid.liesOn {above : List Frame} (hl : h.Laid (above ++ f :: below)) : f.LiesOn h below := by
  induction above with
  | nil => exact hl.1
  | cons g above ih => exact ih hl.2

theorem Laid.sub_lt (hl : h.Laid l) (hf : f ∈ l) (hs : f.sub? = some s) : s < h.subs.length := by
  obtain ⟨above, below, rfl⟩ := List.append_of_mem hf
  have hf := hl.liesOn
  cases f <;> cases hs
  · exact hf
  · exact hf
  · exact hf
  · exact hf.1

theorem Laid.session_lt (hl : h.Laid l) (hf : f ∈ l) (hs : f.session? = some i) :
    i < h.sessions.length := by
  obtain ⟨above, below, rfl⟩ := List.append_of_mem hf
  have hf := hl.liesOn
  cases f <;> cases hs
  · exact hf
  · exact hf
  · exact hf
  · exact hf.1
  · exact hf.1

end

/-- Everything that a hub refers to exists, and its frames lie on what they need. -/
structure Wired (h : Hub) : Prop where
  homes : ∀ s < h.subs.length, (h.sub s).home < h.sessions.length
  members : ∀ i, ∀ s ∈ (h.session i).members, s < h.subs.length
  /-- A subscription is a member of the session it was made for. -/
  own : ∀ s < h.subs.length, s ∈ (h.session (h.sub s).home).members
  laid : h.Laid h.stack

theorem Wired.sub_lt {h : Hub} {f : Frame} {rest : List Frame} {s : SubId} (hw : Wired h)
    (hst : h.stack = f :: rest) (hs : f.sub? = some s) : s < h.subs.length :=
  hw.laid.sub_lt (by rw [hst]; exact List.mem_cons_self) hs

theorem Wired.session_lt {h : Hub} {f : Frame} {rest : List Frame} {i : SessionId} (hw : Wired h)
    (hst : h.stack = f :: rest) (hi : f.session? = some i) : i < h.sessions.length :=
  hw.laid.session_lt (by rw [hst]; exact List.mem_cons_self) hi

/-- Below a hook and a post lies the session that runs them. -/
theorem Wired.liesOn {h : Hub} {f : Frame} {rest : List Frame} (hw : Wired h)
    (hst : h.stack = f :: rest) : f.LiesOn h rest := by
  have hl := hw.laid
  rw [hst] at hl
  exact hl.1

end Hub
end Aftermath
