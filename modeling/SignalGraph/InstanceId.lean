import SignalGraph.Text.Hex

/-!
Identifiers of running instances: 128 bits, written as 32 hexadecimal digits in five groups.
-/

namespace SignalGraph

structure InstanceId where
  value : BitVec 128
deriving DecidableEq, Inhabited

namespace InstanceId

def bytes (id : InstanceId) : List UInt8 :=
  (List.range 16).map fun i => UInt8.ofNat (id.value.toNat >>> (8 * (15 - i)))

def ofBytes? (bytes : List UInt8) : Option InstanceId :=
  if bytes.length = 16 then
    some ⟨BitVec.ofNat 128 (bytes.foldl (fun n b => 256 * n + b.toNat) 0)⟩
  else none

/-- The identifier that sixteen random bytes give: two fields say that it is random. -/
def ofRandom (bytes : List UInt8) : InstanceId :=
  let n := bytes.foldl (fun n b => 256 * n + b.toNat) 0
  let mark (n position width value : Nat) :=
    (((n >>> (position + width)) <<< width + value) <<< position) + n % (1 <<< position)
  ⟨BitVec.ofNat 128 (mark (mark n 76 4 4) 62 2 2)⟩

def text (id : InstanceId) : String :=
  let digits := Text.hexDigits 32 id.value.toNat
  let group (start size : Nat) := (digits.drop start).take size
  String.ofList (group 0 8 ++ '-' :: group 8 4 ++ '-' :: group 12 4 ++ '-' :: group 16 4 ++
    '-' :: group 20 12)

def ofDigits? (digits : List Char) : Option InstanceId := do
  let values ← digits.mapM Text.hexValue?
  if values.length = 32 then
    some ⟨BitVec.ofNat 128 (values.foldl (fun n d => 16 * n + d) 0)⟩
  else none

def ofGroups? (cs : List Char) : Option InstanceId :=
  if cs.length = 36 ∧ [8, 13, 18, 23].all (fun i => cs[i]? = some '-') then
    ofDigits? (cs.filter (· ≠ '-'))
  else none

/-- Reads an identifier: plain digits, or groups, which may stand in braces or after `urn:uuid:` in
any case. -/
def ofText? (s : String) : Option InstanceId :=
  let cs := s.toList
  if cs.length = 32 then ofDigits? cs
  else if cs.length = 38 ∧ cs.head? = some '{' ∧ cs.getLast? = some '}' then
    ofGroups? (cs.tail.dropLast)
  else if cs.length = 45 ∧ (cs.take 9).map Char.toLower = "urn:uuid:".toList then
    ofGroups? (cs.drop 9)
  else ofGroups? cs

end InstanceId
end SignalGraph
