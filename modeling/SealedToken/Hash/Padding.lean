import SealedToken.Bytes

/-!
# Padding of hashed messages

* `padMessage`: a message, a marker byte, zero bytes and the length in bits, together a whole number
  of blocks.
* `messageBlocks`: the padded message in blocks.
-/

namespace SealedToken

/-- `message` filled up to a multiple of `blockSize` bytes, its length in bits in the last
`lengthSize`. -/
def padMessage (blockSize lengthSize : Nat) (message : Bytes) : Bytes :=
  message ++ 0x80 :: zeroFill blockSize (message.length + 1 + lengthSize) ++
    bigEndian lengthSize (8 * message.length)

/-- The blocks of the padded message. -/
def messageBlocks (blockSize lengthSize : Nat) (message : Bytes) : List Bytes :=
  allBlocks blockSize (padMessage blockSize lengthSize message)

end SealedToken
