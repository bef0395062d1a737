import IndexFeed.Text.Utf8

/-!
# Encode buffers

Space that is lent to a transform for writing keys. What is written is split off as the key, and
the buffer goes on empty.
-/

namespace IndexFeed

open Text (Bytes)

structure Buffer where
  content : Bytes
  deriving DecidableEq, Repr

namespace Buffer

def empty : Buffer := ⟨[]⟩

def clear (_ : Buffer) : Buffer := empty

def write (b : Buffer) (bytes : Bytes) : Buffer := ⟨b.content ++ bytes⟩

/-- The content of the buffer, and the buffer without it. -/
def split (b : Buffer) : Bytes × Buffer := (b.content, empty)

end Buffer

end IndexFeed
