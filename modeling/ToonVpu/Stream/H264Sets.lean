import ToonVpu.Stream.H264Lossless

/-!
# H264Sets — do the parameter sets precede a picture?

Both H.264 handlers put the configured parameter sets in front of each IDR slice NAL unit, not in
front of the access unit.  In a unit with one slice it is the same.  In a unit with several IDR
slices, or with another slice before the first one, parameter sets come to stand between the slices
of one picture, where they begin a new access unit for a decoder.
-/

namespace ToonVpu
namespace Stream

open Foundation
open Lib

/-! ## Statement -/

section Render

variable {spspps : List UInt8} {nals : List Nal} {n : Nal}

end Render

/-! ## The two handlers -/

section Handlers

variable {α : Type*} {handle : Handler α} {l : Link α} {spspps : List UInt8}
  {before : List H264Unit} {u : H264Unit}

end Handlers

end Stream
end ToonVpu
