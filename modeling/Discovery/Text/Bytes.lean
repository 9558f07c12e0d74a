/-!
# Bytes

Data that is stored or sent is a list of bytes, and a text is stored as its UTF-8 bytes.

* `toText?_ofText`: a text is read back from its bytes.
-/

namespace Discovery

abbrev Bytes := List UInt8

namespace Bytes

def ofText (s : String) : Bytes :=
  s.toUTF8.data.toList

/-- The text with these UTF-8 bytes, if they are valid. -/
def toText? (b : Bytes) : Option String :=
  String.fromUTF8? ⟨b.toArray⟩

theorem toText?_ofText (s : String) : toText? (ofText s) = some s := by
  have h : (ByteArray.mk (ofText s).toArray) = s.toByteArray := by
    simp [ofText, String.toUTF8]
  unfold toText? String.fromUTF8?
  rw [h, dif_pos s.isValidUTF8]
  rfl

end Bytes

end Discovery
