import Bitfont.Blob
import Bitfont.Binary32
import Bitfont.Typeface

namespace Bitfont

inductive Output where
  | standardOutput
  | file (path : Octets)
deriving DecidableEq, Repr

namespace Output

def ofPath : Option Octets → Output
  | none => .standardOutput
  | some path => .file path

end Output

structure BlobRequest where
  input : Octets
  output : Output
  format : Blob.Format
deriving DecidableEq, Repr

structure RasterizeRequest where
  font : Octets
  size : Binary32
  format : Typeface.Format
  output : Output
deriving DecidableEq, Repr

structure HeaderRequest where
  source : Octets
  header : Octets
deriving DecidableEq, Repr

inductive Request where
  | rasterize (request : RasterizeRequest)
  | blob (request : BlobRequest)
  | header (request : HeaderRequest)
deriving DecidableEq, Repr

end Bitfont
