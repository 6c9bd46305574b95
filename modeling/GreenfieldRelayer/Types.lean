import Mathlib.Data.UInt

/-!
# GreenfieldRelayer — Go values of the BSC → Greenfield oracle relay

The records `BSCAssembler.process` reads and writes, as the Go code holds them: a relay
package row of the BSC store, a vote row, a validator, the in-turn relayer descriptor the
oracle module returns, and the claim message with its transaction options.

Go's `uint64` is `UInt64`. Go's `int64` is `BitVec 64` read as two's complement
(`BitVec.toInt`, compared with `BitVec.slt`), so that `int64(u)` and `uint64(x)` are the
identity on bits, as in Go, and `+` wraps as Go's does.

Errors are values. `GoError.message` gives the text of the errors the repository builds
itself with `fmt.Errorf`; an error a chain client or a store returns is carried as it came.

`encoding/hex` works on bytes: `decodeString` reads the in-turn relayer's key and
`encodeToString` writes the validators' keys, and **`decodeString_encodeToString`** says the
first reads back what the second wrote.
-/

namespace GreenfieldRelayer

/-- Go results compare by case and value. -/
instance instDecidableEqExcept {ε α : Type} [DecidableEq ε] [DecidableEq α] :
    DecidableEq (Except ε α)
  | .error a, .error b => decidable_of_iff (a = b) (by simp)
  | .ok a, .ok b => decidable_of_iff (a = b) (by simp)
  | .error _, .ok _ => isFalse nofun
  | .ok _, .error _ => isFalse nofun

/-! ## Store rows -/

/-- `db.TxStatus`, a Go `int`. The `db` package is not among the sources: the codes are the
ones its store uses, where `greenfield_dao.go` selects `AllVoted` rows by the literal
`status = 2`. -/
structure TxStatus where
  code : Int
  deriving DecidableEq, Repr

namespace TxStatus

def saved : TxStatus := ⟨0⟩

def allVoted : TxStatus := ⟨2⟩

def delivered : TxStatus := ⟨3⟩

end TxStatus

/-- The fields of `model.BscRelayPackage` that the assembler reads. -/
structure BscRelayPackage where
  id : BitVec 64
  status : TxStatus
  txTime : BitVec 64
  height : UInt64
  deriving DecidableEq, Repr

/-- A row of the vote store, `model.Vote`: a validator's BLS share over the claim payload. -/
structure Vote where
  pubKey : String
  signature : String
  claimPayload : List UInt8
  deriving DecidableEq, Repr

/-- A validator of the Greenfield set, `tmtypes.Validator`, in the order the chain lists them. -/
structure Validator where
  blsKey : List UInt8
  votingPower : BitVec 64
  deriving DecidableEq, Repr

/-! ## Chain messages -/

/-- `oracletypes.RelayInterval`: the half-open window `[start, end)` of the in-turn relayer. -/
structure RelayInterval where
  (start end' : UInt64)
  deriving DecidableEq, Repr

/-- `oracletypes.QueryInturnRelayerResponse`: the in-turn relayer's BLS key, hex-encoded. -/
structure QueryInturnRelayerResponse where
  blsPubKey : String
  relayInterval : RelayInterval
  deriving DecidableEq, Repr

/-- `oracletypes.MsgClaim`, in the order `NewMsgClaim` takes its fields. -/
structure MsgClaim where
  fromAddress : String
  srcChainId : UInt32
  destChainId : UInt32
  sequence : UInt64
  timestamp : UInt64
  payload : List UInt8
  voteAddressSet : List UInt64
  aggSignature : List UInt8
  deriving DecidableEq, Repr

/-- `sdktypes.TxOption` as `ClaimPackages` fills it; the fee is one coin of `feeDenom`. -/
structure TxOption where
  noSimulate : Bool
  gasLimit : UInt64
  feeDenom : String
  feeAmount : BitVec 64
  nonce : UInt64
  deriving DecidableEq, Repr

/-- The part of `sdk.TxResponse` that `ClaimPackages` reads. -/
structure TxResponse where
  code : UInt32
  rawLog : String
  txHash : String
  deriving DecidableEq, Repr

/-! ## Errors -/

/-- The errors of `encoding/hex`: `ErrLength` and `InvalidByteError`. -/
inductive HexError
  | length
  | invalidByte (b : UInt8)
  deriving DecidableEq, Repr

/-- An error a pass returns. -/
inductive GoError
  /-- An error a chain client, a store or a library returned, carried as it came. -/
  | call (msg : String)
  | hex (e : HexError)
  /-- `process`, line 87. -/
  | clockSkew (now : BitVec 64) (start : UInt64)
  /-- `process`, line 169. -/
  | notEnoughVotes (seq : UInt64)
  /-- `ClaimPackages`, a broadcast the chain answered with a non-zero code. -/
  | claimRejected (code : UInt32) (rawLog : String)
  /-- Go's run-time panic on `xs[i]` past the end of a slice. -/
  | indexOutOfRange (index length : Nat)
  deriving DecidableEq, Repr

/-- A run-time panic, which unwinds past every `if err != nil` instead of being returned. -/
def GoError.isPanic : GoError → Bool
  | .indexOutOfRange .. => true
  | _ => false

/-- The text of an error the repository builds itself. -/
def GoError.message : GoError → Option String
  | .clockSkew now start =>
    some s!"blockchain time and relayer time is not consistent, now {now.toInt} should be after {start.toNat}"
  | .notEnoughVotes seq => some s!"packages with oracle sequence {seq.toNat} does not get enough votes yet"
  | .claimRejected code rawLog => some s!"claim error, code={code.toNat}, log={rawLog}"
  | .indexOutOfRange index length =>
    some s!"runtime error: index out of range [{index}] with length {length}"
  | _ => none

/-! ## `encoding/hex` -/

/-- `reverseHexTable` of `encoding/hex`: the nibble a byte spells, if it is a hex digit. -/
def hexNibble (c : UInt8) : Option UInt8 :=
  if 48 ≤ c ∧ c ≤ 57 then some (c - 48)
  else if 97 ≤ c ∧ c ≤ 102 then some (c - 87)
  else if 65 ≤ c ∧ c ≤ 70 then some (c - 55)
  else none

/-- `hex.Decode`: pairs of digits first, then the check of a trailing odd byte, which
reports an invalid byte before the odd length. -/
def hexDecode : List UInt8 → Except HexError (List UInt8)
  | [] => .ok []
  | [p] => match hexNibble p with
    | none => .error (.invalidByte p)
    | some _ => .error .length
  | p :: q :: rest => match hexNibble p, hexNibble q with
    | none, _ => .error (.invalidByte p)
    | some _, none => .error (.invalidByte q)
    | some a, some b => (fun bs => (a * 16 + b) :: bs) <$> hexDecode rest

/-- `hex.DecodeString`, over the UTF-8 bytes of the string. -/
def decodeString (s : String) : Except HexError (List UInt8) :=
  hexDecode s.toUTF8.data.toList

example : decodeString "0aFf" = .ok [10, 255] := by decide

/-- `hextable` of `encoding/hex`: the lowercase digit of a nibble. -/
def hexDigit (n : UInt8) : UInt8 := if n < 10 then 48 + n else 87 + n

/-- `hex.Encode`: each byte as two digits, `v>>4` then `v&0x0f`. -/
def hexEncode : List UInt8 → List UInt8
  | [] => []
  | b :: bs => hexDigit (b >>> 4) :: hexDigit (b &&& 0x0f) :: hexEncode bs

/-- `hex.EncodeToString`: the digits as a Go string, one character a byte. -/
def encodeToString (bs : List UInt8) : String := ⟨(hexEncode bs).map fun d => Char.ofNat d.toNat⟩

/-! ### Decoding what was encoded -/

theorem toNat_shiftRight_four (b : UInt8) : (b >>> 4).toNat = b.toNat / 16 := by
  show (b.toBitVec >>> (UInt8.mod 4 8).toBitVec).toNat = _
  simp [BitVec.toNat_ushiftRight, Nat.shiftRight_eq_div_pow]
  rfl

theorem toNat_and_fifteen (b : UInt8) : (b &&& 0x0f).toNat = b.toNat % 16 := by
  show (b.toBitVec &&& (15 : UInt8).toBitVec).toNat = _
  simp only [BitVec.toNat_and]
  exact Nat.and_pow_two_sub_one_eq_mod b.toNat 4

/-- A byte is its two nibbles. -/
theorem shiftRight_four_mul_add_and (b : UInt8) : (b >>> 4) * 16 + (b &&& 0x0f) = b := by
  apply UInt8.toNat.inj
  have h₁ := toNat_shiftRight_four b
  have h₂ := toNat_and_fifteen b
  have hb : b.toNat < 256 := b.toNat_lt_size
  show ((b >>> 4).toBitVec * (16 : UInt8).toBitVec + (b &&& 0x0f).toBitVec).toNat = b.toNat
  rw [BitVec.toNat_add, BitVec.toNat_mul]
  change ((b >>> 4).toNat * (16 % 2 ^ 8) % 2 ^ 8 + (b &&& 0x0f).toNat) % 2 ^ 8 = b.toNat
  omega

/-- Each of the sixteen digits reads back as its nibble and is one byte of UTF-8. -/
theorem hexDigit_spec : ∀ k : Fin 16,
    hexNibble (hexDigit (UInt8.ofNat k)) = some (UInt8.ofNat k) ∧
      String.utf8EncodeChar (Char.ofNat (hexDigit (UInt8.ofNat k)).toNat) = [hexDigit (UInt8.ofNat k)] := by
  decide

theorem hexDigit_of_lt {n : UInt8} (h : n.toNat < 16) :
    hexNibble (hexDigit n) = some n ∧
      String.utf8EncodeChar (Char.ofNat (hexDigit n).toNat) = [hexDigit n] := by
  have hn : UInt8.ofNat n.toNat = n := UInt8.toNat.inj (UInt8.toNat_ofNat_of_lt n.toNat_lt_size)
  simpa [hn] using hexDigit_spec ⟨n.toNat, h⟩

theorem nibbles_lt (b : UInt8) : (b >>> 4).toNat < 16 ∧ (b &&& 0x0f).toNat < 16 := by
  have hb : b.toNat < 256 := b.toNat_lt_size
  rw [toNat_shiftRight_four, toNat_and_fifteen]
  omega

theorem hexDecode_hexEncode (bs : List UInt8) : hexDecode (hexEncode bs) = .ok bs := by
  induction bs with
  | nil => rfl
  | cons b bs ih =>
    obtain ⟨hhi, hlo⟩ := nibbles_lt b
    simp only [hexEncode, hexDecode, (hexDigit_of_lt hhi).1, (hexDigit_of_lt hlo).1, ih,
      shiftRight_four_mul_add_and]
    rfl

/-- The string `hex.EncodeToString` builds has the digits as its UTF-8 bytes. -/
theorem toUTF8_encodeToString (bs : List UInt8) :
    (encodeToString bs).toUTF8.data.toList = hexEncode bs := by
  show ((hexEncode bs).map fun d => Char.ofNat d.toNat).flatMap String.utf8EncodeChar = _
  induction bs with
  | nil => rfl
  | cons b bs ih =>
    obtain ⟨hhi, hlo⟩ := nibbles_lt b
    simp only [hexEncode, List.map_cons, List.flatMap_cons, (hexDigit_of_lt hhi).2,
      (hexDigit_of_lt hlo).2, ih]
    rfl

/-- **`hex.DecodeString` reads back what `hex.EncodeToString` wrote.** -/
theorem decodeString_encodeToString (bs : List UInt8) :
    decodeString (encodeToString bs) = .ok bs := by
  rw [decodeString, toUTF8_encodeToString, hexDecode_hexEncode]

end GreenfieldRelayer
