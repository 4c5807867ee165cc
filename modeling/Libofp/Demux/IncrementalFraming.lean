/- GID: Libofp/Demux/IncrementalFraming
   digest: Messages framed from the pieces of a stream as they become contiguous. -/

import Libofp.Demux.EndOfStream
import Libofp.Demux.MessageFraming

/-!
Each offer is framed as far as it goes, the rest of it stays cached and is offered
again together with what follows it. The invariant says that the messages so far are
those of the contiguous bytes from position zero on, up to the first missing position,
and that the next position is where the framing of these bytes has stopped.
-/

set_option autoImplicit false

namespace Libofp.Demux.IncrementalFraming

open Octets.ByteRange Base.Framing Base.Slice StreamPieces Delivery Coalescing
open Coverage EndOfStream MessageFraming

/-- The messages that `submitPayload` delivers for a payload in one piece. -/
def frames (data : Bytes) : List Bytes := (drain payloadCutter data).1

variable {S : Bytes}

/-- The contiguous bytes up to `frontier` have been framed, up to the next position. -/
structure FramedTo (st : Flow S.length) (out : List Bytes) (frontier : Nat) : Prop where
  behind : st.next ≤ frontier
  bounded : frontier ≤ S.length
  drained : drain payloadCutter (S.take frontier) = (out, slice S st.next frontier)

structure Framed (received : Nat → Prop) (st : Flow S.length) (out : List Bytes) : Prop where
  tidy : Tidy received st
  unfinished : st.finished = false
  unflagged : ¬ HasFinal st.cache
  reached : ∃ f, FramedTo st out f ∧ (∀ i < f, received i) ∧ ¬ received f

variable {out : List Bytes} {st : Flow S.length} {new : Piece S.length}

end Libofp.Demux.IncrementalFraming
