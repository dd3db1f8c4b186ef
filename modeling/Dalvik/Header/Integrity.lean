import Dalvik.Digest.Adler32
import Dalvik.Digest.Sha1
import Dalvik.Header.Basic
import Dalvik.Options

/-!
# Header and input

Whether what a header says of its file is true: its own size, the size of the file, the checksum and
the signature. The options decide whether a false statement is a failure or a warning.
-/

namespace Dalvik

/-- Deals with a false statement of the header as the options say. -/
def Reporting.contradict (options : Options) (statement : Contradiction) : Reporting Unit :=
  if options.strict then fail (.contradicted statement)
  else warn (.contradicted statement)

namespace Header

/-- The offset from which on the checksum covers the file. -/
def checksumStart : Nat := 12

/-- The offset from which on the signature covers the file. -/
def signatureStart : Nat := 32

/-- Whether a version is one that the format is known to have. -/
def isKnownVersion (version : Nat) : Bool :=
  35 ≤ version && version ≤ 41

/-- The checksum that an input should have in its header. -/
def computedChecksum (input : Bytes) : UInt32 :=
  Adler32.checksum (input.toList.drop checksumStart)

/-- The signature that an input should have in its header. -/
def computedSignature (input : Bytes) : List UInt8 :=
  Sha1.digest (input.toList.drop signatureStart)

/-- Compares a header with the whole input. An unknown version is never more than a warning. -/
def checkAgainst (header : Header) (input : Bytes) (options : Options) : Reporting Unit := do
  if !isKnownVersion header.version then
    Reporting.warn (.unknownVersion header.version)
  if header.headerSize.toNat ≠ headerLength then
    Reporting.contradict options (.headerSize header.headerSize)
  if header.fileSize.toNat ≠ input.size then
    Reporting.contradict options (.fileSize header.fileSize input.size)
  if options.compareChecksum then
    let computed := computedChecksum input
    if computed ≠ header.checksum then
      Reporting.contradict options (.checksum header.checksum computed)
  if options.compareSignature then
    if computedSignature input ≠ header.signature.toList then
      Reporting.contradict options (.signature header.signature.toList)
  Reporting.record
    (.headerAccepted header.version (header.count .strings) (header.count .types)
      (header.count .classes))

end Header

end Dalvik
