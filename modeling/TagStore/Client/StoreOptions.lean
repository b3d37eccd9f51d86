import TagStore.Duration

/-!
# Options of a write

The tags that an entry is found by, and how long it is kept.
-/

namespace TagStore

/-- Tags, and the seconds after which an entry is dropped; 0 keeps it. -/
structure StoreOptions where
  tags : List String := []
  expireSecs : Nat := 0
deriving Repr, DecidableEq

namespace StoreOptions

/-- Adds a tag. -/
def tag (o : StoreOptions) (t : String) : StoreOptions := { o with tags := o.tags ++ [t] }

/-- Adds several tags. -/
def addTags (o : StoreOptions) (ts : List String) : StoreOptions := { o with tags := o.tags ++ ts }

/-- Drops the entry after a span of time, of which the whole seconds count. -/
def expireAfter (o : StoreOptions) (d : Duration) : StoreOptions := { o with expireSecs := d.secs }

end StoreOptions

end TagStore
