import DbGovernor.Model.TidTable

/-!
# Messages on the socket

`send_info` writes the bytes of a `client_data`, and `get_data_from_client` reads into another
one: on x86-64 three integers of four bytes, a `username_t`, four bytes of padding and five
integers of eight bytes.
-/

namespace DbGovernor

/-- The bytes of an integer of `k` bytes, the lowest first. -/
def leBytes : ℕ → ℤ → List UInt8
  | 0, _ => []
  | k + 1, n => UInt8.ofNat (n % 256).toNat :: leBytes k (n / 256)

/-- The number that some bytes stand for without a sign. -/
def leNat : List UInt8 → ℕ
  | [] => 0
  | b :: bytes => b.toNat + 256 * leNat bytes

/-- The integer that some bytes stand for in two's complement. -/
def leInt (bytes : List UInt8) : ℤ :=
  if 2 * leNat bytes < 256 ^ bytes.length then leNat bytes
  else leNat bytes - 256 ^ bytes.length

/-- `sizeof (client_data)`. -/
def clientDataSize : ℕ := 120

/-- The bytes of a `client_data` on the stack of `send_info`. The ones that no assignment writes
have the values `junk`: those of the name after its NUL, and the padding. -/
def ClientData.encode (junk : ℕ → UInt8) (snd : ClientData) : List UInt8 :=
  leBytes 4 snd.type ++ leBytes 4 snd.tid ++ leBytes 4 snd.pid ++
    (snd.username.bytes ++ 0 ::
      (List.range (usernamemaxlen - 1 - snd.username.bytes.length)).map fun i => junk i) ++
    ((List.range 4).map fun i => junk (usernamemaxlen + i)) ++
    leBytes 8 snd.cpu ++ leBytes 8 snd.write ++ leBytes 8 snd.read ++
    leBytes 8 snd.updateTime ++ leBytes 8 snd.naoseconds

/-- The `n` bytes of a structure from the offset `off` on. -/
def bytesAt (off n : ℕ) (bytes : List UInt8) : List UInt8 := (bytes.drop off).take n

/-- What the daemon reads in the bytes of a `client_data`; the name is copied by `strlcpy`. -/
def ClientData.decode (bytes : List UInt8) : ClientData where
  type := leInt (bytesAt 0 4 bytes)
  tid := leInt (bytesAt 4 4 bytes)
  pid := leInt (bytesAt 8 4 bytes)
  username := strlcpy (bytesAt 12 usernamemaxlen bytes)
  cpu := leInt (bytesAt 80 8 bytes)
  write := leInt (bytesAt 88 8 bytes)
  read := leInt (bytesAt 96 8 bytes)
  updateTime := leInt (bytesAt 104 8 bytes)
  naoseconds := leInt (bytesAt 112 8 bytes)

/-- One positive result of `recv_wrapper`: what `message` held before, and the bytes that came. -/
structure Recv where
  message : List UInt8
  chunk : List UInt8
  size : message.length = clientDataSize
  nonempty : chunk ≠ []
  fits : chunk.length ≤ clientDataSize

/-- `message` after the call. -/
def Recv.bytes (r : Recv) : List UInt8 := r.chunk ++ r.message.drop r.chunk.length

/-- The messages that `get_data_from_client` takes from one descriptor: any positive result is
taken for a whole message. -/
def getDataFromClient (results : List Recv) : List ClientData :=
  results.map fun r => ClientData.decode r.bytes

end DbGovernor
