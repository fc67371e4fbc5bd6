import CodeDelta.Files.Path
import CodeDelta.Text.Utf8

/-!
# Paths of the operating system

The operating system keeps a path as bytes, which need not be text. Slashes and dots are bytes of
their own, so a path of bytes is made of components as the text of its octets is. Only what is told
of a path becomes text: in a tag, replacement characters stand for what is not UTF-8 in a name, and
an extension that is not UTF-8 is not told at all.
-/

namespace CodeDelta

/-- A path, or a name in one, as the operating system keeps it. -/
abbrev OsPath := List UInt8

namespace OsPath

/-- The path that a text spells. -/
def ofText (path : String) : OsPath := Text.encodeUtf8 path.toList

/-- The text of a path's octets. -/
def octetText (path : OsPath) : String := String.ofList (Text.octets path)

/-- The path whose octets make a text. -/
def ofOctetText (text : String) : OsPath := Text.ofOctets text.toList

/-- The text that a name is shown as. -/
def shown (name : OsPath) : String := String.ofList (Text.decodeLossy name)

/-- The path below a root. -/
def relative (path root : OsPath) : String :=
  let names :=
    Path.namesBelow (Path.components (octetText path)) (Path.components (octetText root))
  "/".intercalate (names.map fun name => shown (ofOctetText name))

/-- The bytes of a path's extension. -/
def extension? (path : OsPath) : Option OsPath :=
  (Path.extension? (octetText path)).map ofOctetText

/-- The extension of a path, when it is text. -/
def extensionText? (path : OsPath) : Option String :=
  (extension? path).bind fun extension =>
    (Text.decodeUtf8 extension).toOption.map String.ofList

end OsPath

/-- The path below a root. -/
def Path.relative (path root : String) : String :=
  OsPath.relative (.ofText path) (.ofText root)

end CodeDelta
