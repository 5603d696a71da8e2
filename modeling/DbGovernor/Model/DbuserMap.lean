import DbGovernor.Model.Config

/-!
# The dbuser map

`get_map_file` reads lines `user account uid`. The three fields are cut to the size of a
`username_t` by their position in the line, and a line that gives no positive uid is
dropped.
-/

namespace DbGovernor

/-- `UserMap`. -/
structure UserMap where
  username : Username
  uid : ℤ
  accountName : Username
deriving DecidableEq

/-- `fgets` with a buffer of `n + 1` bytes: at most `n` bytes, up to and with a newline. -/
def fgets : ℕ → List UInt8 → List UInt8 × List UInt8
  | 0, rest => ([], rest)
  | _, [] => ([], [])
  | n + 1, b :: rest =>
      if b = 10 then ([b], rest)
      else
        let (line, rest) := fgets n rest
        (b :: line, rest)

/-- The lines that the reading loop sees, each cut at its first NUL as `strlen` does. -/
def mapLines : ℕ → List UInt8 → List (List UInt8)
  | 0, _ => []
  | _, [] => []
  | fuel + 1, b :: bytes =>
      let (line, rest) := fgets 1023 (b :: bytes)
      line.takeWhile (· ≠ 0) :: mapLines fuel rest

/-- `trim`: blanks and newlines are removed. -/
def trim (s : List UInt8) : List UInt8 := s.filter fun b => b ≠ 32 && b ≠ 10

/-- The three buffers and the two separator positions while a line is scanned. -/
structure LineScan where
  username : List UInt8
  accountName : List UInt8
  uid : List UInt8
  split : ℕ
  split2 : ℕ

/-- One round of the loop over the bytes of a line. A separator at position 0 leaves
`split` at 0, so the scan goes on as if none had been met. -/
def scanByte (s : LineScan) (i : ℕ) (b : UInt8) : LineScan :=
  if s.split = 0 then
    if b ≠ 32 then
      if i < usernamemaxlen - 1 then { s with username := s.username ++ [b] } else s
    else { s with split := i }
  else if s.split2 = 0 then
    if b ≠ 32 then
      if i - s.split - 1 < usernamemaxlen - 1 then
        { s with accountName := s.accountName ++ [b] }
      else s
    else { s with split2 := i }
  else if b ≠ 10 ∧ i - s.split2 - 1 < usernamemaxlen - 1 then { s with uid := s.uid ++ [b] }
  else s

def scanLine (line : List UInt8) : LineScan :=
  (line.zipIdx).foldl (fun s p => scanByte s p.2 p.1) ⟨[], [], [], 0, 0⟩

/-- The decimal digits at the front of a text. -/
def digits (s : List UInt8) : List UInt8 := s.takeWhile fun b => 48 ≤ b && b ≤ 57

def decimal (s : List UInt8) : ℕ := s.foldl (fun n b => 10 * n + (b.toNat - 48)) 0

/-- `strtol` saturates at the ends of `long`. -/
def saturate (n : ℤ) : ℤ := max (-2 ^ 63) (min n (2 ^ 63 - 1))

/-- `atoi`: the `int` part of what `strtol` reads. -/
def atoi (s : List UInt8) : ℤ :=
  let s := s.dropWhile fun b => b = 32 || (9 ≤ b && b ≤ 13)
  let n : ℤ := match s with
    | 45 :: rest => -decimal (digits rest)
    | 43 :: rest => decimal (digits rest)
    | _ => decimal (digits s)
  (saturate n + 2 ^ 31) % 2 ^ 32 - 2 ^ 31

/-- The entry a line gives, if it gives one. -/
def mapEntry (separateLve : Bool) (line : List UInt8) : Option UserMap :=
  let s := scanLine line
  let username := strlcpy (trim s.username)
  let accountName := strlcpy (trim s.accountName)
  if username.bytes = [] ∨ accountName.bytes = [] then none
  else
    let tmpUid := if separateLve then atoi (trim s.uid) else badLve
    if tmpUid ≥ 1 then some ⟨username, tmpUid, accountName⟩ else none

/-- One line of the reading loop: a name that is already in the table keeps its entry. -/
def addMapLine (separateLve : Bool) (userMap : HashTable UserMap) (line : List UInt8) :
    HashTable UserMap :=
  match mapEntry separateLve line with
  | none => userMap
  | some um => if (userMap.lookup um.username).isSome then userMap
      else userMap.insert um.username um

/-- `get_map_file` on the content of the file, or on no file. The old table is destroyed
in both cases. -/
def getMapFile (cfg : GovernorConfig) (file : Option (List UInt8)) :
    Bool × HashTable UserMap :=
  match file with
  | none => (false, ∅)
  | some bytes =>
      (true, (mapLines bytes.length bytes).foldl (addMapLine cfg.separateLve) ∅)

/-- `g_hash_table_find (userMap, find_uid, u)`. -/
def findUid (userMap : Option (HashTable UserMap)) (u : Username) : Option UserMap :=
  userMap.bind fun t => (t.entries.map Sigma.snd).find? fun um => um.username = u

/-- `get_uid`. -/
def getUid (userMap : Option (HashTable UserMap)) (u : Username) : ℤ :=
  match findUid userMap u with
  | some um => um.uid
  | none => badLve

/-- `get_account`. -/
def getAccount (userMap : Option (HashTable UserMap)) (u : Username) : Option Username :=
  (findUid userMap u).map UserMap.accountName

end DbGovernor
