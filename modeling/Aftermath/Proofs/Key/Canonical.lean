import Aftermath.Key.Shape
import Aftermath.Proofs.Json.Canonical

/-! The key for a value depends on the JSON form of the value and on nothing else of it. A string
stands in the key as it is; any other form stands as a text that is read as that form, so different
forms have different keys. The order in which fields and entries are given is no part of the form, nor
is a value whose name comes again. -/

namespace Aftermath

open Json (Proper FloatFree)

section
variable {ε α β γ : Type} {f : α → Except ε β} {x : α} {y : β} {as bs : List α} {ys : List β}

/-! ### Lists taken through a function that can fail -/

theorem mapM_cons_ok_iff :
    (x :: as).mapM f = .ok ys ↔ ∃ y, f x = .ok y ∧ ∃ us, as.mapM f = .ok us ∧ y :: us = ys := by
  simp only [List.mapM_cons, bind_ok_iff, pure, Except.pure, Except.ok.injEq]

theorem mapM_append_ok_iff : (as ++ bs).mapM f = .ok ys ↔
    ∃ us, as.mapM f = .ok us ∧ ∃ ws, bs.mapM f = .ok ws ∧ us ++ ws = ys := by
  simp only [List.mapM_append, bind_ok_iff, pure, Except.pure, Except.ok.injEq]

/-- One of the list can be exchanged for another that comes to the same. -/
theorem mapM_exchange {x' : α} (h : ∀ y, f x = .ok y ↔ f x' = .ok y) :
    (as ++ x :: bs).mapM f = .ok ys ↔ (as ++ x' :: bs).mapM f = .ok ys := by
  simp only [mapM_append_ok_iff, mapM_cons_ok_iff, h]

theorem exists_of_mem_mapM (h : as.mapM f = .ok ys) (hy : y ∈ ys) : ∃ x ∈ as, f x = .ok y := by
  induction as generalizing ys with
  | nil => cases h; cases hy
  | cons x as ih =>
    obtain ⟨z, hz, us, hus, rfl⟩ := mapM_cons_ok_iff.1 h
    rcases List.mem_cons.1 hy with rfl | hy
    · exact ⟨x, .head _, hz⟩
    · obtain ⟨x', hx', hf⟩ := ih hus hy
      exact ⟨x', .tail _ hx', hf⟩

theorem mapM_perm (hp : as.Perm bs) (h : as.mapM f = .ok ys) :
    ∃ us, bs.mapM f = .ok us ∧ ys.Perm us := by
  induction hp generalizing ys with
  | nil => exact ⟨ys, h, .refl _⟩
  | cons x _ ih =>
    obtain ⟨y, hy, us, hus, rfl⟩ := mapM_cons_ok_iff.1 h
    obtain ⟨ws, hws, hp⟩ := ih hus
    exact ⟨y :: ws, mapM_cons_ok_iff.2 ⟨y, hy, ws, hws, rfl⟩, hp.cons y⟩
  | swap x x' _ =>
    obtain ⟨y, hy, us, hus, rfl⟩ := mapM_cons_ok_iff.1 h
    obtain ⟨y', hy', ws, hws, rfl⟩ := mapM_cons_ok_iff.1 hus
    have hrest := mapM_cons_ok_iff.2 ⟨y, hy, ws, hws, rfl⟩
    exact ⟨y' :: y :: ws, mapM_cons_ok_iff.2 ⟨y', hy', _, hrest, rfl⟩, .swap ..⟩
  | trans _ _ ih ih' =>
    obtain ⟨us, hus, hp⟩ := ih h
    obtain ⟨ws, hws, hp'⟩ := ih' hus
    exact ⟨ws, hws, hp.trans hp'⟩

theorem map_eq_of_mapM {g : α → γ} {k : β → γ} (hg : ∀ x y, f x = .ok y → g x = k y)
    (h : as.mapM f = .ok ys) : as.map g = ys.map k := by
  induction as generalizing ys with
  | nil => cases h; rfl
  | cons x as ih =>
    obtain ⟨y, hy, us, hus, rfl⟩ := mapM_cons_ok_iff.1 h
    rw [List.map_cons, List.map_cons, hg x y hy, ih hus]

end

namespace Shape

inductive Made : Shape → Prop where
  | null : Made .null
  | bool {b : Bool} : Made (.bool b)
  | int {n : Int} : Made (.int n)
  | float {x : Float} : Made (.float x)
  | single {x : Float32} : Made (.single x)
  | char {c : Char} : Made (.char c)
  | text {s : String} : Made (.text s)
  | json {v : Json} : Proper v → Made (.json v)
  | optional {s : Shape} : Made s → Made (.optional s)
  | wrapped {s : Shape} : Made s → Made (.wrapped s)
  | choice {name : String} : Made (.choice name)
  | tagged {name : String} {s : Shape} : Made s → Made (.tagged name s)
  | list {items : List Shape} : (∀ s ∈ items, Made s) → Made (.list items)
  | record {fields : List (String × Shape)} : (∀ f ∈ fields, Made f.2) → Made (.record fields)
  | map {entries : List (Shape × Shape)} : (∀ e ∈ entries, Made e.2) → Made (.map entries)
  | unwritable {message : String} : Made (.unwritable message)

inductive IsText : Shape → String → Prop where
  | text {s : String} : IsText (.text s) s
  | char {c : Char} : IsText (.char c) (String.singleton c)
  | choice {name : String} : IsText (.choice name) name
  | json {s : String} : IsText (.json (.str s)) s
  | optional {s : Shape} {x : String} : IsText s x → IsText (.optional s) x
  | wrapped {s : Shape} {x : String} : IsText s x → IsText (.wrapped s) x

structure HasForm (s : Shape) (v : Json) : Prop where
  made : s.Made
  form : s.toJson? = .ok v
  floatFree : v.FloatFree

/-- Shapes that differ in the order of fields and entries only and in values whose name comes again,
at whatever depth. -/
inductive Alike : Shape → Shape → Prop where
  | refl {s} : Alike s s
  | symm {s s'} : Alike s s' → Alike s' s
  | trans {s s' s''} : Alike s s' → Alike s' s'' → Alike s s''
  | optional {s s'} : Alike s s' → Alike (.optional s) (.optional s')
  | wrapped {s s'} : Alike s s' → Alike (.wrapped s) (.wrapped s')
  | tagged {name s s'} : Alike s s' → Alike (.tagged name s) (.tagged name s')
  | item {as s s' bs} : Alike s s' → Alike (.list (as ++ s :: bs)) (.list (as ++ s' :: bs))
  | field {as name s s' bs} : Alike s s' →
      Alike (.record (as ++ (name, s) :: bs)) (.record (as ++ (name, s') :: bs))
  | entry {as key s s' bs} : Alike s s' →
      Alike (.map (as ++ (key, s) :: bs)) (.map (as ++ (key, s') :: bs))
  | fields {as bs} : as.Perm bs → (as.map fun f => f.1).Nodup → Alike (.record as) (.record bs)
  | entries {as bs} : as.Perm bs → (as.map fun e => e.1.name?).Nodup → Alike (.map as) (.map bs)
  | earlierField {as name s v bs} : s.toJson? = .ok v → name ∈ bs.map (fun f => f.1) →
      Alike (.record (as ++ (name, s) :: bs)) (.record (as ++ bs))
  | earlierEntry {as key name s v bs} : s.toJson? = .ok v → key.name? = .ok name →
      .ok name ∈ bs.map (fun e => e.1.name?) → Alike (.map (as ++ (key, s) :: bs)) (.map (as ++ bs))

/-! ### Forms -/

def fieldForm (f : String × Shape) : Except ShapeError (String × Json) :=
  f.2.toJson?.map fun v => (f.1, v)

def entryForm (e : Shape × Shape) : Except ShapeError (String × Json) := do
  let name ← e.1.name?
  let v ← e.2.toJson?
  return (name, v)

theorem itemsToJson?_eq (items : List Shape) : itemsToJson? items = items.mapM toJson? := by
  induction items with
  | nil => rfl
  | cons s ss ih =>
    rw [itemsToJson?, List.mapM_cons, ih]
    cases s.toJson? with
    | error e => rfl
    | ok v => cases ss.mapM toJson? <;> rfl

theorem fieldsToJson?_eq (fields : List (String × Shape)) :
    fieldsToJson? fields = fields.mapM fieldForm := by
  induction fields with
  | nil => rfl
  | cons f fs ih =>
    obtain ⟨name, s⟩ := f
    rw [fieldsToJson?, List.mapM_cons, ih, fieldForm]
    cases s.toJson? with
    | error e => rfl
    | ok v => cases fs.mapM fieldForm <;> rfl

theorem entriesToJson?_eq (entries : List (Shape × Shape)) :
    entriesToJson? entries = entries.mapM entryForm := by
  induction entries with
  | nil => rfl
  | cons e es ih =>
    obtain ⟨key, s⟩ := e
    rw [entriesToJson?, List.mapM_cons, ih, entryForm]
    cases key.name? with
    | error e => rfl
    | ok name =>
      cases s.toJson? with
      | error e => rfl
      | ok v => cases es.mapM entryForm <;> rfl

theorem record_ok_iff {fields : List (String × Shape)} {v : Json} :
    (record fields).toJson? = .ok v ↔ ∃ ms, fields.mapM fieldForm = .ok ms ∧ .ofMembers ms = v := by
  rw [toJson?, fieldsToJson?_eq]
  cases fields.mapM fieldForm <;> simp

theorem map_ok_iff {entries : List (Shape × Shape)} {v : Json} :
    (map entries).toJson? = .ok v ↔ ∃ ms, entries.mapM entryForm = .ok ms ∧ .ofMembers ms = v := by
  rw [toJson?, entriesToJson?_eq]
  cases entries.mapM entryForm <;> simp

theorem list_ok_iff {items : List Shape} {v : Json} :
    (list items).toJson? = .ok v ↔ ∃ vs, items.mapM toJson? = .ok vs ∧ .arr vs = v := by
  rw [toJson?, itemsToJson?_eq]
  cases items.mapM toJson? <;> simp

theorem tagged_ok_iff {name : String} {s : Shape} {v : Json} :
    (tagged name s).toJson? = .ok v ↔ ∃ w, s.toJson? = .ok w ∧ .obj [(name, w)] = v := by
  rw [toJson?]
  cases s.toJson? <;> simp

theorem fieldForm_ok_iff {name : String} {s : Shape} {m : String × Json} :
    fieldForm (name, s) = .ok m ↔ ∃ v, s.toJson? = .ok v ∧ (name, v) = m :=
  Aftermath.map_ok_iff

theorem entryForm_ok_iff {key s : Shape} {m : String × Json} :
    entryForm (key, s) = .ok m ↔
      ∃ name, key.name? = .ok name ∧ ∃ v, s.toJson? = .ok v ∧ (name, v) = m := by
  simp only [entryForm, bind_ok_iff, pure, Except.pure, Except.ok.injEq]

/-- What a shape is written as is a JSON value as it can be. -/
theorem Made.proper {s : Shape} {v : Json} (h : s.Made) (hv : s.toJson? = .ok v) : v.Proper := by
  have hfloat : ∀ x, Proper (.ofFloat x) := by
    intro x
    unfold Json.ofFloat
    split
    · next hx => exact .float hx
    · exact .null
  induction h generalizing v with
  | null => cases hv; exact .null
  | bool => cases hv; exact .bool
  | @int n =>
    rw [toJson?] at hv
    split at hv
    · next hn =>
      cases hv
      rw [fits, Bool.and_eq_true, decide_eq_true_eq, decide_eq_true_eq] at hn
      exact .int hn.1 hn.2
    · cases hv
  | float | single => cases hv; exact hfloat _
  | char | text | choice => cases hv; exact .str
  | json hp => cases hv; exact hp
  | optional _ ih | wrapped _ ih => exact ih hv
  | tagged _ ih =>
    obtain ⟨w, hw, rfl⟩ := tagged_ok_iff.1 hv
    refine .obj (List.pairwise_singleton _ _) fun m hm => ?_
    rw [List.mem_singleton.1 hm]
    exact ih hw
  | list _ ih =>
    obtain ⟨vs, hvs, rfl⟩ := list_ok_iff.1 hv
    refine .arr fun w hw => ?_
    obtain ⟨s, hs, hw⟩ := exists_of_mem_mapM hvs hw
    exact ih s hs hw
  | record _ ih =>
    obtain ⟨ms, hms, rfl⟩ := record_ok_iff.1 hv
    refine .ofMembers fun m hm => ?_
    obtain ⟨f, hf, hm⟩ := exists_of_mem_mapM hms hm
    obtain ⟨w, hw, rfl⟩ := fieldForm_ok_iff.1 hm
    exact ih f hf hw
  | map _ ih =>
    obtain ⟨ms, hms, rfl⟩ := map_ok_iff.1 hv
    refine .ofMembers fun m hm => ?_
    obtain ⟨e, he, hm⟩ := exists_of_mem_mapM hms hm
    obtain ⟨_, -, w, hw, rfl⟩ := entryForm_ok_iff.1 hm
    exact ih e he hw
  | unwritable => cases hv

theorem isText_of_form {x : String} (s : Shape) (h : s.toJson? = .ok (.str x)) : s.IsText x := by
  have hfloat : ∀ y, Json.ofFloat y ≠ .str x := by
    intro y hy
    unfold Json.ofFloat at hy
    split at hy
    · cases hy
    · cases hy
  cases s with
  | char | text | json | choice =>
    cases h
    constructor
  | optional s => exact .optional (isText_of_form s h)
  | wrapped s => exact .wrapped (isText_of_form s h)
  | int n =>
    rw [toJson?] at h
    split at h
    · cases h
    · cases h
  | float y | single y => exact absurd (Except.ok.inj h) (hfloat _)
  | tagged name s =>
    obtain ⟨w, -, hw⟩ := tagged_ok_iff.1 h
    cases hw
  | list items =>
    obtain ⟨vs, -, hvs⟩ := list_ok_iff.1 h
    cases hvs
  | record fields =>
    obtain ⟨ms, -, hms⟩ := record_ok_iff.1 h
    cases hms
  | map entries =>
    obtain ⟨ms, -, hms⟩ := map_ok_iff.1 h
    cases hms
  | null | bool | unwritable => cases h

/-- A shape has a string for its form if it is one. -/
theorem isText_iff {s : Shape} {x : String} : s.IsText x ↔ s.toJson? = .ok (.str x) := by
  refine ⟨fun h => ?_, isText_of_form s⟩
  induction h with
  | optional _ ih | wrapped _ ih => exact ih
  | _ => rfl

/-! ### Order -/

section
variable {α γ : Type} {f : α → Except ShapeError (String × Json)} {g : α → γ} {k : String → γ}
  {x : α} {m : String × Json} {as bs : List α} {v : Json}

/-- The members that a list is written as make up an object. -/
def Gathers (f : α → Except ShapeError (String × Json)) (as : List α) (v : Json) : Prop :=
  ∃ ms, as.mapM f = .ok ms ∧ .ofMembers ms = v

structure Named (f : α → Except ShapeError (String × Json)) (g : α → γ) (k : String → γ) : Prop where
  name : ∀ x m, f x = .ok m → g x = k m.1
  inj : ∀ a b, k a = k b → a = b

theorem Gathers.perm (hf : Named f g k) (hp : as.Perm bs) (hn : (as.map g).Nodup)
    (h : Gathers f as v) : Gathers f bs v := by
  obtain ⟨ms, hms, rfl⟩ := h
  obtain ⟨us, hus, hp⟩ := mapM_perm hp hms
  have hkeys : (ms.map fun m => m.1).Nodup := by
    rw [map_eq_of_mapM hf.name hms] at hn
    refine List.Pairwise.of_map (S := (· ≠ ·)) k (fun _ _ hne he => hne (congrArg k he)) ?_
    rwa [List.map_map]
  exact ⟨us, hus, (Json.ofMembers_perm hp hkeys).symm⟩

theorem gathers_earlier_iff (hf : Named f g k) (hx : f x = .ok m) (hg : g x ∈ bs.map g) :
    Gathers f (as ++ x :: bs) v ↔ Gathers f (as ++ bs) v := by
  have hover : ∀ us ws, bs.mapM f = .ok ws →
      Json.ofMembers (us ++ m :: ws) = .ofMembers (us ++ ws) := by
    intro us ws hws
    rw [hf.name x m hx, map_eq_of_mapM hf.name hws] at hg
    obtain ⟨m', hm', he⟩ := List.mem_map.1 hg
    exact Json.ofMembers_overwritten (List.mem_map.2 ⟨m', hm', hf.inj _ _ he⟩)
  simp only [Gathers, mapM_append_ok_iff, mapM_cons_ok_iff, hx]
  constructor
  · rintro ⟨_, ⟨us, hus, _, ⟨_, he, ws, hws, rfl⟩, rfl⟩, rfl⟩
    cases he
    exact ⟨_, ⟨us, hus, ws, hws, rfl⟩, (hover us ws hws).symm⟩
  · rintro ⟨_, ⟨us, hus, ws, hws, rfl⟩, rfl⟩
    exact ⟨_, ⟨us, hus, _, ⟨m, rfl, ws, hws, rfl⟩, rfl⟩, hover us ws hws⟩

end

theorem field_named : Named fieldForm (fun f => f.1) id where
  name := by
    rintro ⟨name, s⟩ m h
    obtain ⟨v, -, rfl⟩ := fieldForm_ok_iff.1 h
    rfl
  inj := fun _ _ h => h

theorem entry_named : Named entryForm (fun e => e.1.name?) .ok where
  name := by
    rintro ⟨key, s⟩ m h
    obtain ⟨name, hname, v, -, rfl⟩ := entryForm_ok_iff.1 h
    exact hname
  inj := fun _ _ h => Except.ok.inj h

/-- Shapes that are alike have the same form, if they have one. -/
theorem Alike.form_iff {s s' : Shape} (h : Alike s s') (v : Json) :
    s.toJson? = .ok v ↔ s'.toJson? = .ok v := by
  induction h generalizing v with
  | refl => rfl
  | symm _ ih => exact (ih v).symm
  | trans _ _ ih ih' => exact (ih v).trans (ih' v)
  | optional _ ih | wrapped _ ih => exact ih v
  | tagged _ ih => simp only [tagged_ok_iff, ih]
  | item _ ih => simp only [list_ok_iff, mapM_exchange ih]
  | field _ ih =>
    simp only [record_ok_iff]
    refine exists_congr fun ms => and_congr_left' (mapM_exchange fun m => ?_)
    simp only [fieldForm_ok_iff, ih]
  | entry _ ih =>
    simp only [map_ok_iff]
    refine exists_congr fun ms => and_congr_left' (mapM_exchange fun m => ?_)
    simp only [entryForm_ok_iff, ih]
  | fields hp hn =>
    rw [record_ok_iff, record_ok_iff]
    have hn' := (hp.map _).nodup_iff.1 hn
    exact ⟨Gathers.perm field_named hp hn, Gathers.perm field_named hp.symm hn'⟩
  | entries hp hn =>
    rw [map_ok_iff, map_ok_iff]
    have hn' := (hp.map _).nodup_iff.1 hn
    exact ⟨Gathers.perm entry_named hp hn, Gathers.perm entry_named hp.symm hn'⟩
  | earlierField hs hn =>
    rw [record_ok_iff, record_ok_iff]
    exact gathers_earlier_iff field_named (fieldForm_ok_iff.2 ⟨_, hs, rfl⟩) hn
  | earlierEntry hs hk hn =>
    rw [map_ok_iff, map_ok_iff]
    exact gathers_earlier_iff entry_named (entryForm_ok_iff.2 ⟨_, hk, _, hs, rfl⟩) (hk ▸ hn)

end Shape

namespace Key

variable {type field x : String} {s : Shape} {v : Json}

theorem ofShape_ok_iff {k : Key} :
    ofShape type field s = .ok k ↔ ∃ v, s.toJson? = .ok v ∧ ⟨type, field, v.keyValue⟩ = k :=
  map_ok_iff

theorem ofShape_of_isText (h : s.IsText x) : ofShape type field s = .ok ⟨type, field, x⟩ :=
  ofShape_ok_iff.2 ⟨_, Shape.isText_iff.1 h, rfl⟩

theorem keyValue_of_not_str (hv : ∀ x, v ≠ .str x) : v.keyValue = v.render := by
  cases v with
  | str x => exact absurd rfl (hv x)
  | _ => rfl

theorem ofShape_of_form (h : s.HasForm v) (hv : ∀ x, v ≠ .str x) :
    ofShape type field s = .ok ⟨type, field, v.render⟩ :=
  ofShape_ok_iff.2 ⟨v, h.form, by rw [keyValue_of_not_str hv]⟩

/-- The key for a value has the value's string, where the value is one. It has the compact text of any
other form without floating-point numbers, which is read as that form: keys are equal if and only if
the forms are. Neither the order of fields and entries nor a value whose name comes again makes a
difference. -/
theorem value_key_is_canonical (type field : String) :
    (∀ s x, Shape.IsText s x ↔ s.toJson? = .ok (.str x)) ∧
    (∀ s x, Shape.IsText s x → ofShape type field s = .ok ⟨type, field, x⟩) ∧
    (∀ s v, Shape.HasForm s v → (∀ x, v ≠ .str x) →
      ofShape type field s = .ok ⟨type, field, v.render⟩ ∧ Json.read v.render = .ok v) ∧
    (∀ s s' v v', Shape.HasForm s v → Shape.HasForm s' v' → (∀ x, v ≠ .str x) → (∀ x, v' ≠ .str x) →
      (ofShape type field s = ofShape type field s' ↔ v = v')) ∧
    ∀ s s', Shape.Alike s s' → ∀ k, ofShape type field s = .ok k ↔ ofShape type field s' = .ok k := by
  refine ⟨fun s x => Shape.isText_iff, fun s x => ofShape_of_isText, ?_, ?_, ?_⟩
  · intro s v h hv
    exact ⟨ofShape_of_form h hv, Json.read_render h.floatFree (h.made.proper h.form)⟩
  · intro s s' v v' h h' hv hv'
    rw [ofShape_of_form h hv, ofShape_of_form h' hv', ← Json.render_inj h.floatFree
      (h.made.proper h.form) h'.floatFree (h'.made.proper h'.form)]
    simp
  · intro s s' h k
    simp only [ofShape_ok_iff, h.form_iff]

def tallyEntries (n : Int) : List (Shape × Shape) :=
  [(.int 1, .list [.text "\"", .bool true]), (.text "b", .int n), (.text "a", .null)]

def tally (n : Int) : Shape := .map (tallyEntries n)

def tallyForm (n : Int) : Json :=
  .obj [("1", .arr [.str "\"", .bool true]), ("a", .null), ("b", .int n)]

theorem tally_hasForm {n : Int} (hn : (tally n).toJson? = .ok (tallyForm n)) :
    (tally n).HasForm (tallyForm n) where
  made := by
    refine .map ?_
    simp only [tallyEntries, List.forall_mem_cons]
    refine ⟨.list ?_, .int, .null, List.forall_mem_nil _⟩
    simp only [List.forall_mem_cons]
    exact ⟨.text, .bool, List.forall_mem_nil _⟩
  form := hn
  floatFree := by
    refine .obj ?_
    simp only [List.forall_mem_cons]
    refine ⟨.arr ?_, .null, .int, List.forall_mem_nil _⟩
    simp only [List.forall_mem_cons]
    exact ⟨.str, .bool, List.forall_mem_nil _⟩

/-- Two maps that differ in one number have different keys. A third, in which that number comes after
another under the same name and all comes in another order, has the key of the first. -/
theorem tally_keys :
    ofShape "t" "f" (.wrapped (.optional (.char 'c'))) = .ok ⟨"t", "f", "c"⟩ ∧
    Json.read (tallyForm 3).render = .ok (tallyForm 3) ∧
    ofShape "t" "f" (tally 3) ≠ ofShape "t" "f" (tally 4) ∧
    ofShape "t" "f" (.map ((.text "b", .int (-7)) :: (tallyEntries 3).reverse)) =
      .ok ⟨"t", "f", (tallyForm 3).render⟩ := by
  obtain ⟨-, htext, hform, hinj, halike⟩ := value_key_is_canonical "t" "f"
  have h3 := tally_hasForm (n := 3) rfl
  have h4 := tally_hasForm (n := 4) rfl
  have hobj : ∀ n x, tallyForm n ≠ .str x := by
    intro n x h
    cases h
  have hearlier : Shape.Alike (.map ([] ++ (.text "b", .int (-7)) :: (tallyEntries 3).reverse))
      (.map ([] ++ (tallyEntries 3).reverse)) :=
    .earlierEntry rfl rfl (by simp [tallyEntries, Shape.name?])
  have horder : Shape.Alike (tally 3) (.map (tallyEntries 3).reverse) := by
    refine .entries (List.reverse_perm _).symm ?_
    change [(.ok "1" : Except ShapeError String), .ok "b", .ok "a"].Nodup
    simp
  refine ⟨htext _ _ (.wrapped (.optional .char)), (hform _ _ h3 (hobj 3)).2, ?_, ?_⟩
  · rw [Ne, hinj _ _ _ _ h3 h4 (hobj 3) (hobj 4)]
    intro h
    cases h
  · exact (halike _ _ (hearlier.trans horder.symm) _).2 (hform _ _ h3 (hobj 3)).1

end Key
end Aftermath
