import SolanaArbBot.Json

/-! Quotes and swap instructions exchanged with the Metis routing engine. -/
namespace SolanaArbBot

structure AccountMeta where
  pubkey : String
  isSigner : Bool
  isWritable : Bool
  deriving DecidableEq

structure InstructionData where
  programId : String
  accounts : List AccountMeta
  data : String
  deriving DecidableEq, Inhabited

structure SwapInstructionsResponse where
  computeBudgetInstructions : List InstructionData
  setupInstructions : List InstructionData
  swapInstruction : InstructionData
  cleanupInstruction : Option InstructionData
  addressLookupTableAddresses : List String
  deriving DecidableEq, Inhabited

def SwapInstructionsResponse.withData (r : SwapInstructionsResponse) (data : String) :
    SwapInstructionsResponse :=
  { r with swapInstruction := { r.swapInstruction with data := data } }

structure QuoteResponse where
  inputMint : String
  inAmount : String
  outputMint : String
  outAmount : String
  otherAmountThreshold : String
  swapMode : String
  priceImpactPct : String
  routePlan : Value
  contextSlot : Option UInt64
  instructionVersion : Option String
  extra : List (String × Value)

inductive SwapIxError where
  | timeout
  | http (status : UInt16)
  | network
  | parse
  deriving DecidableEq

/-- Concatenate the two route plans into one circular quote whose output and
threshold are both the smallest acceptable output. -/
def mergeQuotes (quote1 quote2 : QuoteResponse) (minAcceptableOut : UInt64) :
    Except String QuoteResponse :=
  match quote1.routePlan.asArray with
  | none => .error "quote1 routePlan is not an array"
  | some routePlan1 =>
    match quote2.routePlan.asArray with
    | none => .error "quote2 routePlan is not an array"
    | some routePlan2 =>
      .ok {
        inputMint := quote1.inputMint
        inAmount := quote1.inAmount
        outputMint := quote2.outputMint
        outAmount := toString minAcceptableOut.toNat
        otherAmountThreshold := toString minAcceptableOut.toNat
        swapMode := quote1.swapMode
        priceImpactPct := "0"
        routePlan := .array (routePlan1 ++ routePlan2)
        contextSlot := quote2.contextSlot
        instructionVersion := quote1.instructionVersion
        extra := quote1.extra }

end SolanaArbBot
