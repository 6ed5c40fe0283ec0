import Mathlib.Data.List.Sort
import SolanaArbBot.Json
import SolanaArbBot.Lib.Bytes

/-! The amount-free signature of a route plan: two FNV-1a passes over the
swapInfo fields of its hops. Nothing outside swapInfo is read. -/
namespace SolanaArbBot.TemplateCache
open Lib

/-- The 128-bit key under which a route structure is cached. -/
abbrev Sig := BitVec 128

/-- The swapInfo keys that depend on the trade size and are left out. -/
def isAmountKey (key : String) : Bool :=
  key = "inAmount" || key = "outAmount" || key = "feeAmount"

def feed (h : UInt64) (bytes : List UInt8) : UInt64 :=
  bytes.foldl (fun h byte => (h ^^^ byte.toUInt64) * 0x0000_0001_0000_01b3) h

/-- The bytes of a field value; nulls, arrays and objects contribute none. -/
def valueBytes : Option Value → List UInt8
  | some (.string s) => asBytes s
  | some (.bool b) => if b then asBytes "T" else asBytes "F"
  | some (.number n) => asBytes n.toText
  | _ => []

def feedField (fields : List (String × Value)) (h : UInt64) (key : String) : UInt64 :=
  if isAmountKey key then h
  else
    let h := feed h (asBytes key)
    let h := feed h (asBytes "=")
    let h := feed h (valueBytes (fields.lookup key))
    feed h (asBytes ";")

/-- The keys of an object in the order in which they are hashed. -/
def sortedKeys (fields : List (String × Value)) : List String :=
  (fields.map Prod.fst).insertionSort (· ≤ ·)

def feedHop (h : UInt64) (hop : Value) : UInt64 :=
  match hop.swapInfo with
  | some fields => (sortedKeys fields).foldl (feedField fields) h
  | none => h

def fnv1a64 (routePlan : Value) (seed : UInt64) : UInt64 :=
  match routePlan.asArray with
  | some arr => arr.foldl feedHop seed
  | none => seed

def routeSig (routePlan : Value) : Sig :=
  let h1 := fnv1a64 routePlan 0xcbf2_9ce4_8422_2325
  let h2 := fnv1a64 routePlan 0x517c_c1b7_2722_0a95
  (BitVec.ofNat 128 h1.toNat <<< 64) ||| BitVec.ofNat 128 h2.toNat

def fieldBytes (fields : List (String × Value)) (key : String) : List UInt8 :=
  if isAmountKey key then []
  else asBytes key ++ asBytes "=" ++ valueBytes (fields.lookup key) ++ asBytes ";"

def hopBytes (hop : Value) : List UInt8 :=
  match hop.swapInfo with
  | some fields => (sortedKeys fields).flatMap (fieldBytes fields)
  | none => []

/-- The whole byte stream that the hash consumes for a plan. -/
def hashedBytes (routePlan : Value) : List UInt8 :=
  match routePlan.asArray with
  | some arr => arr.flatMap hopBytes
  | none => []

theorem feed_append (h : UInt64) (a b : List UInt8) : feed h (a ++ b) = feed (feed h a) b :=
  List.foldl_append

private theorem foldl_feed {α : Type} (f : UInt64 → α → UInt64) (g : α → List UInt8)
    (hf : ∀ h x, f h x = feed h (g x)) (xs : List α) (h : UInt64) :
    xs.foldl f h = feed h (xs.flatMap g) := by
  induction xs generalizing h with
  | nil => rfl
  | cons x xs ih => rw [List.foldl_cons, ih, hf, List.flatMap_cons, feed_append]

private theorem feedField_eq (fields : List (String × Value)) (h : UInt64) (key : String) :
    feedField fields h key = feed h (fieldBytes fields key) := by
  unfold feedField fieldBytes
  split
  · rfl
  · simp only [feed_append]

private theorem feedHop_eq (h : UInt64) (hop : Value) : feedHop h hop = feed h (hopBytes hop) := by
  unfold feedHop hopBytes
  cases hop.swapInfo with
  | none => rfl
  | some fields => exact foldl_feed _ _ (feedField_eq fields) _ _

/-- One pass is a function of the seed and of the byte stream alone. -/
theorem fnv1a64_eq_feed (routePlan : Value) (seed : UInt64) :
    fnv1a64 routePlan seed = feed seed (hashedBytes routePlan) := by
  unfold fnv1a64 hashedBytes
  cases routePlan.asArray with
  | none => rfl
  | some arr => exact foldl_feed _ _ feedHop_eq _ _

/-- Plans with the same byte stream share a signature. -/
theorem routeSig_of_hashedBytes {p q : Value} (h : hashedBytes p = hashedBytes q) :
    routeSig p = routeSig q := by
  simp only [routeSig, fnv1a64_eq_feed, h]

end SolanaArbBot.TemplateCache
