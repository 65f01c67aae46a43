import Aftermath.Key.Reader
import Aftermath.Proofs.Json.Scanner

/-! A key that was written as JSON is read back as it was, so that keys lose nothing on their way
through a text, and a text that holds a key can be written anew in the one form keys are written
in. -/

namespace Aftermath

open Json (escape quoted skipSpace skipSpace_cons)

section
variable {cs r : List Char}

@[simp] theorem skipSpace_quote : skipSpace ('"' :: cs) = '"' :: cs := skipSpace_cons rfl

@[simp] theorem skipSpace_colon : skipSpace (':' :: cs) = ':' :: cs := skipSpace_cons rfl

@[simp] theorem skipSpace_comma : skipSpace (',' :: cs) = ',' :: cs := skipSpace_cons rfl

@[simp] theorem skipSpace_open : skipSpace ('\x7b' :: cs) = '\x7b' :: cs := skipSpace_cons rfl

@[simp] theorem skipSpace_close : skipSpace ('\x7d' :: cs) = '\x7d' :: cs := skipSpace_cons rfl

theorem quoted_append (s : String) :
    quoted s ++ cs = '"' :: (s.toList.flatMap escape ++ '"' :: cs) := by
  simp [quoted]

/-- A written string is read as it was. -/
theorem readText_quoted (expected s : String) : readText expected (quoted s ++ r) = .ok (s, r) := by
  rw [quoted_append, readText, skipSpace_quote]
  simp only [Json.text_quoted, ReadError.lift, Except.map, String.ofList_toList]

theorem readColon_colon : readColon (':' :: r) = .ok r := by simp only [readColon, skipSpace_colon]

end

namespace Key

variable {r : List Char}

theorem Member.ofName?_name (m : Member) : Member.ofName? m.name = some m := by
  cases m <;> decide

def Member.tail (m : Member) (s : String) : List Char :=
  m.name.toList.flatMap escape ++ '"' :: ':' :: quoted s

theorem render_toList (k : Key) :
    k.render.toList = '\x7b' :: '"' :: (Member.type.tail k.type ++ ',' :: '"' ::
      (Member.field.tail k.field ++ ',' :: '"' :: (Member.value.tail k.value ++ ['\x7d']))) := by
  simp [render, toJson, Json.render, Json.chars, Json.memberChars, quoted, Member.tail, Member.name]

/-- A written member is taken into the draft. -/
theorem readMember_tail {d : Draft} {m : Member} (s : String) (hd : d.get? m = none) :
    readMember d (m.tail s ++ r) = .ok (d.set m s, r) := by
  have hname : Json.text true (m.tail s ++ r) = .ok (m.name.toList, ':' :: (quoted s ++ r)) := by
    rw [Member.tail, List.append_assoc]
    exact Json.text_quoted _ _
  unfold readMember
  simp only [hname, ReadError.lift, bind, Except.bind, String.ofList_toList, Member.ofName?_name, hd,
    readColon_colon, readText_quoted]
  rfl

theorem readMembers_comma {d d' : Draft} {cs : List Char} (n : Nat)
    (hm : readMember d cs = .ok (d', ',' :: '"' :: r)) :
    readMembers (n + 1) d cs = readMembers n d' r := by
  rw [readMembers]
  simp only [hm, bind, Except.bind, skipSpace_comma, skipSpace_quote]

theorem readMembers_close {d d' : Draft} {cs : List Char} (n : Nat)
    (hm : readMember d cs = .ok (d', '\x7d' :: r)) :
    readMembers (n + 1) d cs = .ok (d', r) := by
  rw [readMembers]
  simp only [hm, bind, Except.bind, skipSpace_close]
  rfl

/-- The three members of a written key make it up again. -/
theorem readMembers_written (k : Key) (n : Nat) :
    readMembers (n + 3) {} (Member.type.tail k.type ++ ',' :: '"' ::
      (Member.field.tail k.field ++ ',' :: '"' :: (Member.value.tail k.value ++ '\x7d' :: r))) =
      .ok (⟨some k.type, some k.field, some k.value⟩, r) := by
  calc _ = readMembers (n + 2) ⟨some k.type, none, none⟩ (Member.field.tail k.field ++ ',' :: '"' ::
        (Member.value.tail k.value ++ '\x7d' :: r)) :=
        readMembers_comma _ (readMember_tail (m := .type) _ rfl)
    _ = readMembers (n + 1) ⟨some k.type, some k.field, none⟩
        (Member.value.tail k.value ++ '\x7d' :: r) :=
        readMembers_comma _ (readMember_tail (m := .field) _ rfl)
    _ = _ := readMembers_close _ (readMember_tail (m := .value) _ rfl)

/-- What is written of a key is read as the key. -/
theorem readObject_written (k : Key) :
    readObject ('"' :: (Member.type.tail k.type ++ ',' :: '"' ::
      (Member.field.tail k.field ++ ',' :: '"' :: (Member.value.tail k.value ++ '\x7d' :: r)))) =
      .ok (k, r) := by
  unfold readObject
  rw [skipSpace_quote]
  generalize hcs : Member.type.tail k.type ++ _ = cs
  obtain ⟨n, hn⟩ : ∃ n, cs.length + 1 = n + 3 := by
    have hlen : 2 ≤ cs.length := by rw [← hcs]; simp; omega
    exact ⟨cs.length - 2, by omega⟩
  have hread := readMembers_written (r := r) k n
  rw [hcs] at hread
  simp only [hn, hread, bind, Except.bind]
  rfl

theorem read_written (k : Key) : read k.render = .ok k := by
  unfold read
  rw [render_toList, skipSpace_open]
  simp only [readObject_written, bind, Except.bind]
  rfl

/-- Every key is read back from its JSON text. Whatever text a key was read from, it is read again from
the text it is written as. -/
theorem keys_survive_writing :
    (∀ k : Key, read k.render = .ok k) ∧ ∀ s k, read s = .ok k → read k.render = .ok k := by
  refine ⟨read_written, ?_⟩
  intro s k _
  exact read_written k

/-- The three strings of this key are read from an array with escapes of all sorts: an empty one, one of
a quote, a backslash and a slash, and one of a control character and a surrogate pair. The key is
written as an object, and read from it. -/
theorem escaped_key_survives :
    read "[\"\", \"\\\"\\u005C\\/\", \"\\u0001\\ud83d\\ude00\"]" = .ok ⟨"", "\"\\/", "\x01😀"⟩ ∧
      read (render ⟨"", "\"\\/", "\x01😀"⟩) = .ok ⟨"", "\"\\/", "\x01😀"⟩ := by
  have htext : "[\"\", \"\\\"\\u005C\\/\", \"\\u0001\\ud83d\\ude00\"]".toList =
      ['[', '"', '"', ',', ' ', '"', '\\', '"', '\\', 'u', '0', '0', '5', 'C', '\\', '/', '"',
        ',', ' ', '"', '\\', 'u', '0', '0', '0', '1', '\\', 'u', 'd', '8', '3', 'd', '\\', 'u',
        'd', 'e', '0', '0', '"', ']'] := String.toList_ofList
  have hread : read "[\"\", \"\\\"\\u005C\\/\", \"\\u0001\\ud83d\\ude00\"]" =
      .ok ⟨"", "\"\\/", "\x01😀"⟩ := by
    unfold read
    rw [htext]
    rfl
  exact ⟨hread, keys_survive_writing.2 _ _ hread⟩

end Key
end Aftermath
