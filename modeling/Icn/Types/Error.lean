import Icn.Crypto.Jws
import Icn.Foundation.Codec.JsonRead
import Icn.Identity.Quorum.Proof

/-!
# The errors of the shared types

The errors that the operations on keys, credentials and quorums return. An error of
the base64 decoder is left without what it carries.
-/

open Foundation Codec

namespace Icn

namespace Types

open Identity Crypto

inductive CryptoError where
  | keyFormatBase64
  | keyFormatGeneric (reason : String)
deriving DecidableEq, Repr

inductive VcError where
  | signing (error : JwsError)
  | invalidStructure
deriving DecidableEq, Repr

inductive IdentityError where
  | didProcessing (source : DidError)
  | deserialization (source : Json.ReadError Empty)
deriving DecidableEq, Repr

inductive TrustError where
  | localCredentialInBundle (error : VcError)
  | quorumProcessing (error : QuorumError)
  | identity (error : IdentityError)
  | weightedThresholdUnachievable (requested maximum : UInt32)
deriving DecidableEq, Repr

end Types

end Icn
