import Kontxt.Core.Token
import Kontxt.Go.Base64

/-!
# Signing Keys

The key manager of the token service: a current signing key, the one before it
while tokens signed with it are still around, and the key set in which both
are published. Generating a key is random, so `rotate` is given the entry it
would have generated.

## Main definitions

* `Keys.KeyEntry`: A private key and its identifier.
* `Keys.Manager`: The current and the previous key.
* `Keys.Manager.rotate`: Replacing the current key.
* `Keys.PublicKey`: A public key as a key set carries it.
* `Keys.Manager.publicKeys`: The published key set.
* `Keys.PublicKey.rsaPublicKey`: Reading a published key.
-/

namespace Kontxt

namespace Keys

open Go

/-- `keyEntry`. -/
structure KeyEntry where
  privateKey : RsaPrivateKey
  kid : String
  deriving Repr, DecidableEq

/-- `Manager`. -/
structure Manager where
  current : KeyEntry
  previous : Option KeyEntry
  deriving Repr, DecidableEq

/-- `SigningKey`. -/
def Manager.signingKey (m : Manager) : RsaPrivateKey × String :=
  (m.current.privateKey, m.current.kid)

/-- `Rotate`, with the freshly generated entry. -/
def Manager.rotate (m : Manager) (entry : KeyEntry) : Manager :=
  { current := entry, previous := some m.current }

/-- `PublicKey`, the JWK form of an RSA key. -/
structure PublicKey where
  kty : String
  use : String
  alg : String
  kid : String
  n : String
  e : String
  deriving Repr, DecidableEq

/-- `newPublicKey`. -/
def newPublicKey (entry : KeyEntry) : PublicKey where
  kty := "RSA"
  use := "sig"
  alg := "RS256"
  kid := entry.kid
  n := rawURLEncode (bigBytes entry.privateKey.publicKey.n)
  e := rawURLEncode (bigBytes entry.privateKey.publicKey.e.natAbs)

/-- `PublicKeys`: the current key, then the previous one if there is one. -/
def Manager.publicKeys (m : Manager) : List PublicKey :=
  newPublicKey m.current :: (m.previous.map newPublicKey).toList

/-- `(*big.Int).Int64`, the low 64 bits as a signed integer. -/
def int64 (n : Nat) : Int :=
  (BitVec.ofNat 64 n).toInt

/-- The key a modulus and an exponent stand for. Key sets of either side are
    read this way. -/
def decodeKey (n e : String) : Except String RsaPublicKey :=
  match rawURLDecode n with
  | .error err => .error ("decoding modulus: " ++ err)
  | .ok nBytes =>
    match rawURLDecode e with
    | .error err => .error ("decoding exponent: " ++ err)
    | .ok eBytes => .ok { n := setBytes nBytes, e := int64 (setBytes eBytes) }

/-- `RSAPublicKey`. -/
def PublicKey.rsaPublicKey (pk : PublicKey) : Except String RsaPublicKey :=
  decodeKey pk.n pk.e

end Keys

end Kontxt
