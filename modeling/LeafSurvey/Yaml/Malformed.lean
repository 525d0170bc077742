/-!
# What is wrong with a settings text

Bytes may be no text, a text may fail to be YAML, for one of the reasons of
`Malformed`, or it may be YAML that writes a value which does not exist, as
`ValueFault` says: a number with no digits, a day that no month has.
-/

namespace LeafSurvey.Yaml

/-- Why a text is not the YAML of one document. -/
inductive Malformed where
  | unprintable
  | noToken
  | noColon
  | misplacedEntry
  | misplacedKey
  | misplacedValue
  | directive
  | version
  | anchorName
  | tag
  | blockHeader
  | unclosedQuote
  | quotedSeparator
  | escape
  | unexpectedToken
  | tagHandle
  | repeatedAnchor
  | unknownAnchor
  | secondDocument
  | unknownTag
  | nodeKind
  | merge
  | key
  | octets
  | pair
deriving DecidableEq, Repr

namespace Malformed

/-- The reason in words. -/
def message : Malformed → String
  | unprintable => "special characters are not allowed"
  | noToken => "found character that cannot start any token"
  | noColon => "could not find expected ':'"
  | misplacedEntry => "sequence entries are not allowed here"
  | misplacedKey => "mapping keys are not allowed here"
  | misplacedValue => "mapping values are not allowed here"
  | directive => "while scanning a directive"
  | version => "found incompatible YAML document"
  | anchorName => "while scanning an anchor"
  | tag => "while scanning a tag"
  | blockHeader => "while scanning a block scalar"
  | unclosedQuote => "found unexpected end of stream"
  | quotedSeparator => "found unexpected document separator"
  | escape => "found unknown escape character"
  | unexpectedToken => "found unexpected token"
  | tagHandle => "found undefined or repeated tag handle"
  | repeatedAnchor => "found duplicate anchor"
  | unknownAnchor => "found undefined alias"
  | secondDocument => "expected a single document in the stream"
  | unknownTag => "could not determine a constructor for the tag"
  | nodeKind => "expected another kind of node for the tag"
  | merge => "expected a mapping or list of mappings for merging"
  | key => "found unhashable key"
  | octets => "failed to decode base64 data"
  | pair => "expected a single mapping item"

end Malformed

/-- Why a value that is written does not exist. -/
inductive ValueFault where
  /-- A number is asked for and the text is none, or has more digits than are
  read. -/
  | notANumber
  /-- A number is asked for and the text has no character for it. -/
  | emptyNumber
  /-- A number in base sixty has a place too great for any floating-point
  number. -/
  | placeTooGreat
  /-- A truth value is asked for and the text is none. -/
  | notABool
  /-- A date is asked for and the text has not the form of one. -/
  | notADate
  /-- A date is asked for and a mapping stands in place of its text. -/
  | dateInMapping
  /-- A day that the calendar does not have, or a time that no clock shows. -/
  | noSuchTime
  /-- A character number beyond all characters. -/
  | noSuchCharacter
  /-- A character number too great even for a number of characters. -/
  | noSuchNumber
  /-- A mapping whose default value leads back to itself. -/
  | endlessDefault
deriving DecidableEq, Repr

/-- Why a text gives no value. -/
inductive Fault where
  | malformed (reason : Malformed)
  | value (fault : ValueFault)
  /-- The bytes of the text are not UTF-8. -/
  | encoding
deriving DecidableEq, Repr

end LeafSurvey.Yaml
