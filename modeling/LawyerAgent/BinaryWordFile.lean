import LawyerAgent.Linked.Chains
import LawyerAgent.LegalArticleHeading

/-!
# Compound files

A legacy Word file is a compound file: sectors of 512 bytes linked by a table,
a directory, and small streams kept in sectors of 64 bytes inside one stream.
Every sector is claimed before it is followed.
-/

set_option autoImplicit false

namespace LawyerAgent.BinaryWordText
open LegalArticleHeading (Text)

abbrev Bytes := List UInt8

/-- What a step of the reader raises; `unfinished` is a loop cut off before its
end. -/
inductive Raised
  | binaryWord (code : String)
  | structError
  | unicodeError
  | indexError
  | keyError
  | unfinished
  deriving DecidableEq

abbrev Attempt := Except Raised

def maxSourceBytes : ℕ := 16*1024*1024

def free : ℕ := 0xFFFFFFFF

/-- `_END` -/
def endOfChain : ℕ := 0xFFFFFFFE

/-- `_FAT` -/
def fatMarker : ℕ := 0xFFFFFFFD

def check (condition : Bool) (code : String) : Attempt Unit :=
  if condition then .ok () else .error (.binaryWord code)

/-- `and`: the second condition is read only when the first one holds. -/
def both (first second : Attempt Bool) : Attempt Bool := do
  if ← first then second else return false

def little (data : Bytes) : ℕ := data.foldr (fun b n => b.toNat+256*n) 0

def unpackFrom (width : ℕ) (data : Bytes) (offset : ℕ) : Attempt ℕ :=
  if offset+width ≤ data.length then .ok (little ((data.drop offset).take width))
  else .error .structError

def u16 (data : Bytes) (offset : ℕ) : Attempt ℕ := unpackFrom 2 data offset

def u32 (data : Bytes) (offset : ℕ) : Attempt ℕ := unpackFrom 4 data offset

def u64 (data : Bytes) (offset : ℕ) : Attempt ℕ := unpackFrom 8 data offset

def is (value : Attempt ℕ) (expected : ℕ) : Attempt Bool := do
  return (← value) == expected

def byteAt (data : Bytes) (index : ℕ) : Attempt ℕ :=
  match data[index]? with
  | some b => .ok b.toNat
  | none => .error .indexError

/-- `struct.unpack` of that many words, which must be the whole data. -/
def unpackWords (count : ℕ) (data : Bytes) : Attempt (List ℕ) :=
  if data.length = 4*count then
    .ok ((List.range count).map fun i => little ((data.drop (4*i)).take 4))
  else .error .structError

def u32s (data : Bytes) (offsets : List ℕ) : Attempt (List ℕ) := offsets.mapM (u32 data)

def isHighSurrogate (unit : ℕ) : Bool := 0xD800 ≤ unit && unit < 0xDC00

def isLowSurrogate (unit : ℕ) : Bool := 0xDC00 ≤ unit && unit < 0xE000

def decodeUnits : List ℕ → Attempt Text
  | [] => .ok []
  | [unit] =>
    if isHighSurrogate unit || isLowSurrogate unit then .error .unicodeError
    else .ok [Char.ofNat unit]
  | unit::next::rest =>
    if isHighSurrogate unit then
      if isLowSurrogate next then do
        let later ← decodeUnits rest
        return Char.ofNat (0x10000+(unit-0xD800)*0x400+(next-0xDC00))::later
      else .error .unicodeError
    else if isLowSurrogate unit then .error .unicodeError
    else do
      let later ← decodeUnits (next::rest)
      return Char.ofNat unit::later

/-- `bytes.decode("utf-16-le")` -/
def decodeUtf16 (data : Bytes) : Attempt Text :=
  if data.length % 2 = 0 then
    decodeUnits ((List.range (data.length/2)).map fun i => little ((data.drop (2*i)).take 2))
  else .error .unicodeError

/-- The sectors claimed so far in order, and the chains they were claimed for. -/
structure Claims where
  used : List ℕ
  chains : List (List ℕ)

def claim (sid : ℕ) (used : List ℕ) : Attempt (List ℕ) := do
  check (!used.contains sid) "cyclic_or_crosslinked_sector"
  return used++[sid]

def linkAt (table : List ℕ) (sid : ℕ) : Attempt ℕ :=
  match table[sid]? with
  | some next => .ok next
  | none => .error .indexError

/-- The loop of `_chain`, cut off when the fuel runs out. -/
def chainFrom (table : List ℕ) (bound : ℕ) :
    ℕ → ℕ → List ℕ → List ℕ → Attempt (List ℕ × List ℕ)
  | fuel, cursor, used, result =>
    if cursor = endOfChain then .ok (result,used)
    else match fuel with
      | 0 => .error .unfinished
      | fuel+1 => do
        check (cursor < min bound table.length) "chain_out_of_bounds"
        let used ← claim cursor used
        let next ← linkAt table cursor
        chainFrom table bound fuel next used (result++[cursor])

def chain (start : ℕ) (table : List ℕ) (bound : ℕ) (claims : Claims) :
    Attempt (List ℕ × Claims) := do
  let found ← chainFrom table bound (bound+1) start claims.used []
  return (found.1,⟨found.2,claims.chains++[found.1]⟩)

structure Volume where
  payload : Bytes
  sectors : ℕ
  fat : List ℕ

def sector (payload : Bytes) (sectors sid : ℕ) : Attempt Bytes := do
  check (sid < sectors) "sector_out_of_bounds"
  return (payload.drop ((sid+1)*512)).take 512

/-- `_regular`: without a size the whole chain is read. -/
def regular (v : Volume) (start : ℕ) (size : Option ℕ) (claims : Claims) :
    Attempt (Bytes × Claims) :=
  if size = some 0 then do
    check ([endOfChain,free,0].contains start) "invalid_empty_chain"
    return ([],claims)
  else do
    check (size.all fun size => size ≤ maxSourceBytes) "stream_size_limit"
    let found ← chain start v.fat v.sectors claims
    check (size.all fun size => found.1.length == (size+511)/512) "stream_chain_size_mismatch"
    let data ← found.1.mapM (sector v.payload v.sectors)
    return (size.elim data.flatten fun size => data.flatten.take size,found.2)

structure DirectoryEntry where
  name : Text
  kind : ℕ
  start : ℕ
  size : ℕ
  left : ℕ
  right : ℕ
  child : ℕ

/-- One slot of the directory; an unused one is skipped. -/
def readEntry (index : ℕ) (raw : Bytes) : Attempt (Option DirectoryEntry) := do
  let kind ← byteAt raw 66
  if kind = 0 then return none
  check (kind == if index = 0 then 5 else 2) "unsupported_cfb_storage"
  let nameLength ← u16 raw 64
  check (2 ≤ nameLength && nameLength ≤ 64 && nameLength % 2 == 0) "invalid_cfb_name"
  check ((raw.take nameLength).drop (nameLength-2) == [0,0]) "invalid_cfb_name"
  let name ← decodeUtf16 (raw.take (nameLength-2))
  check (name != [] && !name.contains '\x00') "invalid_cfb_name"
  let start ← u32 raw 116
  let size ← u64 raw 120
  let left ← u32 raw 68
  let right ← u32 raw 72
  let child ← u32 raw 76
  return some ⟨name,kind,start,size,left,right,child⟩

abbrev Entries := List (ℕ × DirectoryEntry)

def entriesFrom (directory : Bytes) : List ℕ → Attempt Entries
  | [] => .ok []
  | index::rest => do
    let entry ← readEntry index ((directory.drop (index*128)).take 128)
    let later ← entriesFrom directory rest
    return (entry.toList.map fun entry => (index,entry))++later

def entryAt (entries : Entries) (index : ℕ) : Attempt DirectoryEntry :=
  match entries.lookup index with
  | some entry => .ok entry
  | none => .error .keyError

/-- The walk through the directory tree; the last pending index is taken first. -/
def visit (entries : Entries) : ℕ → List ℕ → List ℕ → Attempt (List ℕ)
  | _, [], seen => .ok seen
  | 0, _::_, _ => .error .unfinished
  | fuel+1, index::pending, seen =>
    if index = free then visit entries fuel pending seen
    else do
      check (index != 0 && (entries.lookup index).isSome && !seen.contains index)
        "invalid_directory_tree"
      let entry ← entryAt entries index
      check (entry.child == free) "unsupported_nested_storage"
      visit entries fuel (entry.right::entry.left::pending) (seen++[index])

def indices (entries : Entries) : List ℕ := entries.map Prod.fst

def reachesAll (entries : Entries) (seen : List ℕ) : Bool :=
  (seen.all fun index => (indices entries).contains index && index != 0) &&
  (indices entries).all fun index => index == 0 || seen.contains index

def allowedStreams : List Text :=
  ["WordDocument","0Table","1Table","Data","WpsCustomData","\x05SummaryInformation",
    "\x05DocumentSummaryInformation"].map String.toList

structure MiniVolume where
  stream : Bytes
  fat : List ℕ

structure Storage where
  regular : Claims
  mini : Claims
  streams : List (Text × Bytes)

def miniSector (v : MiniVolume) (sid : ℕ) : Bytes := (v.stream.drop (sid*64)).take 64

/-- The data of one entry: in regular sectors, in mini sectors, or none. -/
def streamData (v : Volume) (mini : MiniVolume) (entry : DirectoryEntry) (s : Storage) :
    Attempt (Bytes × Storage) :=
  if 4096 ≤ entry.size then do
    let found ← regular v entry.start (some entry.size) s.regular
    return (found.1,{ s with regular := found.2 })
  else if entry.size ≠ 0 then do
    let found ← chain entry.start mini.fat (mini.stream.length/64) s.mini
    check (found.1.length == (entry.size+63)/64) "mini_chain_size_mismatch"
    return ((found.1.flatMap (miniSector mini)).take entry.size,{ s with mini := found.2 })
  else do
    check ([endOfChain,free,0].contains entry.start) "invalid_empty_stream"
    return ([],s)

def readStreams (v : Volume) (mini : MiniVolume) (entries : Entries) :
    List ℕ → Storage → Attempt Storage
  | [], s => .ok s
  | index::rest, s => do
    let entry ← entryAt entries index
    check (allowedStreams.contains entry.name && (s.streams.lookup entry.name).isNone)
      "unsupported_or_duplicate_stream"
    let found ← streamData v mini entry s
    readStreams v mini entries rest
      { found.2 with streams := found.2.streams++[(entry.name,found.1)] }

structure CompoundFile where
  volume : Volume
  mini : MiniVolume
  storage : Storage

def signature : Bytes := [0xd0,0xcf,0x11,0xe0,0xa1,0xb1,0x1a,0xe1]

def checkHeader (payload : Bytes) : Attempt Unit := do
  check (512 ≤ payload.length && payload.length ≤ maxSourceBytes) "binary_source_size_limit"
  check (payload.take 8 == signature) "invalid_cfb_signature"
  check (← both (is (u16 payload 26) 3) (is (u16 payload 28) 0xFFFE)) "unsupported_cfb_version"
  check (← both (is (u16 payload 30) 9) (is (u16 payload 32) 6)) "unsupported_sector_size"
  check (payload.length % 512 == 0) "truncated_cfb"
  check (← both (is (u32 payload 40) 0) (is (u32 payload 56) 4096)) "unsupported_cfb_layout"
  check (← both (is (u32 payload 72) 0) (is (u32 payload 68) endOfChain))
    "unsupported_extended_difat"

def claimFat (fat : List ℕ) : List ℕ → List ℕ → Attempt (List ℕ)
  | [], used => .ok used
  | sid::rest, used => do
    let used ← claim sid used
    check (← is (linkAt fat sid) fatMarker) "invalid_fat_marker"
    claimFat fat rest used

/-- The sector table, whose own sectors are claimed first. -/
def readFat (payload : Bytes) : Attempt (Volume × Claims) := do
  let sectors := payload.length/512-1
  let all ← u32s payload ((List.range 109).map fun i => 76+i*4)
  let fatIds := all.filter (· ≠ free)
  check (← both (is (u32 payload 44) fatIds.length) (.ok (fatIds != []))) "invalid_fat_count"
  let tables ← fatIds.mapM fun sid => do
    let data ← sector payload sectors sid
    unpackWords 128 data
  let fat := tables.flatten
  check (sectors ≤ fat.length) "fat_too_short"
  let used ← claimFat fat fatIds []
  return (⟨payload,sectors,fat⟩,⟨used,[fatIds]⟩)

def compoundFile (payload : Bytes) : Attempt CompoundFile := do
  checkHeader payload
  let table ← readFat payload
  let v := table.1
  let directory ← regular v (← u32 payload 48) none table.2
  check (directory.1.length/128 ≤ 2048) "directory_entry_limit"
  let entries ← entriesFrom directory.1 (List.range (directory.1.length/128))
  let root ← entryAt entries 0
  check (root.left == free && root.right == free) "invalid_root_siblings"
  let seen ← visit entries (2*entries.length+1) [root.child] []
  check (reachesAll entries seen) "unreachable_directory_entry"
  let miniStream ← regular v root.start (some root.size) directory.2
  let miniFatStart ← u32 payload 60
  let miniFatSectors ← u32 payload 64
  let miniFatBlob ← regular v miniFatStart (some (miniFatSectors*512)) miniStream.2
  let miniFat ← unpackWords (miniFatBlob.1.length/4) miniFatBlob.1
  let mini : MiniVolume := ⟨miniStream.1,miniFat⟩
  let storage ← readStreams v mini entries (seen.mergeSort (· ≤ ·))
    ⟨miniFatBlob.2,⟨[],[]⟩,[]⟩
  check ((storage.streams.lookup "Data".toList).all List.isEmpty) "unsupported_object_data"
  return ⟨v,mini,storage⟩

end LawyerAgent.BinaryWordText
