import Bitfont.Main
import Bitfont.Proofs.Blob
import Bitfont.Proofs.Typeface
import Bitfont.Proofs.Strike.Calls
import Bitfont.Proofs.SizedFont.Typeface
import Bitfont.Proofs.Session
import Bitfont.Proofs.Conversion
import Bitfont.Proofs.Origin
import Bitfont.Proofs.Literal.Array
import Bitfont.Proofs.Strike.Decoded
import Bitfont.Proofs.Header
import Bitfont.Proofs.Literal.Wrapping
import Bitfont.Proofs.Literal.Writer
import Bitfont.Proofs.Literal.Digits
import Bitfont.Proofs.CommandLine.Spelled
import Bitfont.Proofs.CommandLine.BlobDraft
import Bitfont.Proofs.PackedGlyphs.Views
import Bitfont.Proofs.Header.Source
import Bitfont.Proofs.Header.Pattern
import Bitfont.Proofs.Sfnt.Library
import Bitfont.Proofs.PackedGlyphs.Cursor
import Bitfont.Proofs.Strike.Codes
import Bitfont.Proofs.PackedGlyphs.Offsets
import Bitfont.Proofs.SizedFont.Clipping
import Bitfont.Proofs.CommandLine.BlobWrap
import Bitfont.Proofs.GlyphImage.Dots
import Bitfont.Proofs.Header.Layout
import Bitfont.Proofs.Bitmap
import Bitfont.Proofs.CommandLine.Verbosity
