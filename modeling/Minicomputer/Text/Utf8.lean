/-!
# Texts as bytes

Files, the input and the output of the console hold bytes; a text is in them as UTF-8.  Not every
sequence of bytes is a text.
-/

namespace Minicomputer

abbrev Bytes := List UInt8

namespace Text

def toBytes (text : String) : Bytes :=
  text.toByteArray.data.toList

def ofBytes? (bytes : Bytes) : Option String :=
  String.fromUTF8? ⟨bytes.toArray⟩

theorem ofBytes?_toBytes (text : String) : ofBytes? (toBytes text) = some text := by
  have valid : text.toByteArray.IsValidUTF8 := text.isValidUTF8
  simp [ofBytes?, toBytes, String.fromUTF8?, String.fromUTF8, valid]

theorem toBytes_append (first second : String) :
    toBytes (first ++ second) = toBytes first ++ toBytes second := by
  simp [toBytes]

end Text
end Minicomputer
