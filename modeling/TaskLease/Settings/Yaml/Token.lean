/-!
# Tokens of a YAML document

What a document consists of, once its indentation has been made explicit: every block has a beginning and
an end of its own, and a key is announced before its text.
-/

namespace TaskLease

namespace Yaml

/-- A tag as it is written: what it is looked up by, and the rest. -/
structure Tag where
  handle : String
  suffix : String
deriving DecidableEq, Repr

/-- A token. -/
inductive Token where
  /-- The directive that names a version of the language. -/
  | version
  /-- A directive that says what the handle of a tag stands for. -/
  | handle (name : String) (opening : String)
  | documentStart
  | documentEnd
  | sequenceStart
  | mappingStart
  /-- The end of a block of either kind. -/
  | blockEnd
  | flowSequenceStart
  | flowSequenceEnd
  | flowMappingStart
  | flowMappingEnd
  /-- The dash before an item of a block. -/
  | blockEntry
  /-- The comma between items in brackets. -/
  | flowEntry
  | key
  | value
  | alias (name : String)
  | anchor (name : String)
  | tag (tag : Tag)
  /-- A text, and whether it is plain: neither in quotes nor a block. -/
  | scalar (plain : Bool) (said : String)
deriving DecidableEq, Repr

end Yaml

end TaskLease
