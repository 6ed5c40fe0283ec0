import SolanaArbBot.Json
import SolanaArbBot.Lib.Decimal
import SolanaArbBot.Lib.Delimited

/-! The amount-free identity of a single hop and of a pair of hops. -/
namespace SolanaArbBot.TemplateCache
open Lib

inductive DexKind where
  | whirlpool
  | whirlpoolSwapV2
  | raydiumClmm
  | raydiumV2
  | meteoraDlmm
  | meteoraPools
  | alphaQ
  | aquifer
  | aldrinV2
  | other
  deriving DecidableEq

/-- Lowercase text. Of the letters outside ASCII only these two have a lowercase
form with an ASCII letter in it; the others never decide a comparison below. -/
def toLowercase (s : String) : String :=
  String.ofList (s.toList.flatMap fun c =>
    if c = '\u0130' then ['i', '\u0307'] else if c = '\u212A' then ['k'] else [c.toLower])

def contains (s pattern : String) : Bool := decide (pattern.toList <:+: s.toList)

def DexKind.fromLabel (label : String) : DexKind :=
  let l := toLowercase label
  if contains l "whirlpool" then
    if contains l "v2" || contains l "swap_v2" || contains l "swapv2" then .whirlpoolSwapV2
    else .whirlpool
  else if contains l "raydium" && contains l "clmm" then .raydiumClmm
  else if contains l "raydium" then .raydiumV2
  else if contains l "meteora" && contains l "dlmm" then .meteoraDlmm
  else if contains l "meteora" then .meteoraPools
  else if contains l "alphaq" || contains l "alpha_q" then .alphaQ
  else if contains l "aquifer" then .aquifer
  else if contains l "aldrin" then .aldrinV2
  else .other

def DexKind.fileStem : DexKind → String
  | .whirlpool => "whirlpool"
  | .whirlpoolSwapV2 => "whirlpool_swap_v2"
  | .raydiumClmm => "raydium_clmm"
  | .raydiumV2 => "raydium_v2"
  | .meteoraDlmm => "meteora_dlmm"
  | .meteoraPools => "meteora_pools"
  | .alphaQ => "alphaq"
  | .aquifer => "aquifer"
  | .aldrinV2 => "aldrin_v2"
  | .other => "other"

theorem DexKind.fileStem_injective : Function.Injective DexKind.fileStem := by
  intro d d' h
  revert h
  cases d <;> cases d' <;> decide

inductive DirectionParams where
  | none
  | aToB (b : Bool)
  | sideBid
  | sideAsk
  deriving DecidableEq

/-- The first of the spellings that holds a boolean decides. -/
def firstBool (fields : List (String × Value)) : List String → DirectionParams
  | [] => .none
  | key :: keys =>
    match fields.lookup key with
    | some (.bool b) => .aToB b
    | _ => firstBool fields keys

def extractDirection (dex : DexKind) (si : List (String × Value)) : DirectionParams :=
  match dex with
  | .whirlpool | .whirlpoolSwapV2 | .alphaQ => firstBool si ["a_to_b", "aToB", "atob", "a2b"]
  | .aldrinV2 =>
    match si.lookup "side" with
    | some (.string s) =>
      if toLowercase s = "bid" then .sideBid
      else if toLowercase s = "ask" then .sideAsk
      else .none
    | _ => .none
  | _ => .none

structure HopKey where
  dex : DexKind
  poolOrAmmKey : String
  inputMint : String
  outputMint : String
  direction : DirectionParams
  remainingAccountsHash : UInt64
  deriving DecidableEq

/-- A hop without a string pool key, input mint or output mint has no key. -/
def HopKey.fromSwapInfo (si : List (String × Value)) : Option HopKey := do
  let pool ← (si.lookup "ammKey").bind Value.asStr
  let input ← (si.lookup "inputMint").bind Value.asStr
  let output ← (si.lookup "outputMint").bind Value.asStr
  let label := ((si.lookup "label").bind Value.asStr).getD ""
  let dex := DexKind.fromLabel label
  some {
    dex := dex
    poolOrAmmKey := pool
    inputMint := input
    outputMint := output
    direction := extractDirection dex si
    remainingAccountsHash := 0 }

def DirectionParams.text : DirectionParams → String
  | .none => "none"
  | .aToB true => "a2b:true"
  | .aToB false => "a2b:false"
  | .sideBid => "bid"
  | .sideAsk => "ask"

def HopKey.templateId (k : HopKey) : String :=
  k.poolOrAmmKey ++ ":" ++ k.inputMint ++ ":" ++ k.outputMint ++ ":" ++ k.direction.text ++ ":" ++
    toString k.remainingAccountsHash.toNat

/-- The separator of the flattened key occurs in none of the names it is made of. -/
structure HopKey.Colonless (k : HopKey) : Prop where
  pool : ':' ∉ k.poolOrAmmKey.toList
  input : ':' ∉ k.inputMint.toList
  output : ':' ∉ k.outputMint.toList

instance (k : HopKey) : Decidable k.Colonless :=
  decidable_of_iff (':' ∉ k.poolOrAmmKey.toList ∧ ':' ∉ k.inputMint.toList ∧ ':' ∉ k.outputMint.toList)
    ⟨fun h => ⟨h.1, h.2.1, h.2.2⟩, fun h => ⟨h.pool, h.input, h.output⟩⟩

theorem DirectionParams.text_injective : Function.Injective DirectionParams.text := by
  intro d d' h
  revert h
  cases d with
  | aToB b =>
    cases d' with
    | aToB b' => cases b <;> cases b' <;> decide
    | none | sideBid | sideAsk => cases b <;> decide
  | none | sideBid | sideAsk =>
    cases d' with
    | aToB b' => cases b' <;> decide
    | none | sideBid | sideAsk => decide

theorem HopKey.templateId_toList (k : HopKey) :
    k.templateId.toList = k.poolOrAmmKey.toList ++ ':' :: (k.inputMint.toList ++ ':' ::
      (k.outputMint.toList ++ ':' :: (k.direction.text.toList ++ ':' ::
        (Nat.repr k.remainingAccountsHash.toNat).toList))) := by
  rw [HopKey.templateId]
  simp [String.toList_append]

/-- The text of a direction may hold the separator, so the hash is split off at the last one. -/
private theorem directionHash_inj {d d' : DirectionParams} {n n' : Nat}
    (h : d.text.toList ++ ':' :: (Nat.repr n).toList = d'.text.toList ++ ':' :: (Nat.repr n').toList) :
    d = d' ∧ n = n' := by
  have hdigits (m : Nat) : ':' ∉ (Nat.repr m).toList.reverse := by
    intro hm
    exact absurd (isDigit_of_mem_natRepr (List.mem_reverse.mp hm)) (by decide)
  have hrev := congrArg List.reverse h
  rw [List.reverse_append, List.reverse_append, List.reverse_cons, List.reverse_cons,
    List.append_assoc, List.append_assoc, List.singleton_append, List.singleton_append] at hrev
  obtain ⟨hn, hd⟩ := append_sep_inj (hdigits n) (hdigits n') hrev
  have htext := String.toList_injective (List.reverse_injective hd)
  have hrepr := String.toList_injective (List.reverse_injective hn)
  exact ⟨DirectionParams.text_injective htext, natRepr_injective hrepr⟩

/-- The flattened key tells apart whatever the DEX does not. -/
theorem HopKey.templateId_inj {k k' : HopKey} (h : k.Colonless) (h' : k'.Colonless)
    (he : k.templateId.toList = k'.templateId.toList) :
    k.poolOrAmmKey = k'.poolOrAmmKey ∧ k.inputMint = k'.inputMint ∧
      k.outputMint = k'.outputMint ∧ k.direction = k'.direction ∧
      k.remainingAccountsHash = k'.remainingAccountsHash := by
  rw [templateId_toList, templateId_toList] at he
  obtain ⟨hpool, he⟩ := append_sep_inj h.pool h'.pool he
  obtain ⟨hinput, he⟩ := append_sep_inj h.input h'.input he
  obtain ⟨houtput, he⟩ := append_sep_inj h.output h'.output he
  obtain ⟨hdir, hhash⟩ := directionHash_inj he
  exact ⟨String.toList_injective hpool, String.toList_injective hinput,
    String.toList_injective houtput, hdir, UInt64.toNat_inj.mp hhash⟩

def hopKey (hop : Value) : Option HopKey := hop.swapInfo.bind HopKey.fromSwapInfo

/-- The secondary index key of a plan of exactly two hops that both yield a key. -/
def hopPairKey (routePlan : Value) : Option String :=
  match routePlan.asArray with
  | some [hop0, hop1] => do
    let id0 ← (hopKey hop0).map HopKey.templateId
    let id1 ← (hopKey hop1).map HopKey.templateId
    some (id0 ++ "|" ++ id1)
  | _ => none

def sampleHop (percent : Int) (pool inputMint outputMint : String) : Value :=
  .object [("percent", .number (.int percent)), ("swapInfo", .object [("ammKey", .string pool),
    ("inputMint", .string inputMint), ("label", .string "Raydium"),
    ("outputMint", .string outputMint)])]

def samplePlan : Value :=
  .array [sampleHop 100 "pool1" "WSOL" "MINT", sampleHop 100 "pool2" "MINT" "WSOL"]

example : (hopPairKey samplePlan).isSome = true := by decide

end SolanaArbBot.TemplateCache
