import TimeLimit.Text.Basic

/-!
# Contents of files

A file holds text, or bytes that encode none. Which of the two is decided once, when bytes become a
content (`Content.ofBytes`), and the two views fit: `bytes_ofBytes` and `ofBytes_bytes`.
-/

namespace TimeLimit

/-- What a file holds. -/
inductive Content where
  /-- The encoding of a text. -/
  | text (t : Text)
  /-- Bytes that are not the encoding of any text. -/
  | binary (bytes : ByteArray) (not_text : ¬ bytes.IsValidUTF8)

namespace Content

/-- Contents are compared by their texts or by their bytes. -/
instance : DecidableEq Content
  | text s, text t => decidable_of_iff (s = t) (by simp)
  | binary a _, binary b _ => decidable_of_iff (a.data = b.data) (by simp [ByteArray.ext_iff])
  | text _, binary _ _ => isFalse (nomatch ·)
  | binary _ _, text _ => isFalse (nomatch ·)

/-- The content of a file with the given bytes. -/
def ofBytes (bytes : ByteArray) : Content :=
  if h : bytes.IsValidUTF8 then .text (String.ofByteArray bytes h).toList else .binary bytes h

/-- The bytes of a file with the given content. -/
def bytes : Content → ByteArray
  | text t => (String.ofList t).toUTF8
  | binary b _ => b

theorem bytes_ofBytes (b : ByteArray) : (ofBytes b).bytes = b := by
  rw [ofBytes]
  split
  · simp only [bytes, String.ofList_toList]
    rfl
  · rfl

theorem ofBytes_bytes (c : Content) : ofBytes c.bytes = c := by
  cases c with
  | text t =>
    have h : (String.ofList t).toUTF8.IsValidUTF8 := (String.ofList t).isValidUTF8
    simp only [ofBytes, bytes, h, ↓reduceDIte]
    exact congrArg text (String.toList_ofList (l := t))
  | binary b h => simp [ofBytes, bytes, h]

end Content

end TimeLimit
