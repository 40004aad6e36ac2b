import TapAccess.Identifier
import TapAccess.Tlv.Object

/-!
# Fields that messages share

Some tags stand for the same field in several messages and in the data that the two sides sign. Each of these
fields is written down here once.
-/

namespace TapAccess.Tlv.Object

def firstParameter (b : UInt8) : Object := .ofValue 0x41 [b]

def secondParameter (b : UInt8) : Object := .ofValue 0x42 [b]

/-- The endpoint's ephemeral key, as a point or by its first coordinate. -/
def endpointEphemeral (key : Bytes) : Object := .ofValue 0x86 key

/-- The reader's ephemeral key, as a point or by its first coordinate. -/
def readerEphemeral (key : Bytes) : Object := .ofValue 0x87 key

def transactionIdentifier (i : Identifier) : Object := .ofValue 0x4C i.toList

def readerIdentifier (r : ReaderIdentifier) : Object := .ofValue 0x4D r.encode.toList

end TapAccess.Tlv.Object
