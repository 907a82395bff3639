import SliceAgent.Card.Basic
import SliceAgent.DeviceClass.Basic
import SliceAgent.Text.LowerCase

/-!
The classes that a node publishes: for each model one of whole cards, and for each shape that its cards
support one by memory and one by cores.
-/
namespace SliceAgent

inductive Condition where
  | equals (key value : String)
  | atLeast (key : String) (amount : UInt32)
deriving DecidableEq, Repr

/-- The condition as an expression; a value is put between quotes as it is. -/
def Condition.expression (driver : String) : Condition → String
  | equals key value =>
    "device.attributes[\"" ++ driver ++ "\"]." ++ key ++ " == \"" ++ value ++ "\""
  | atLeast key amount =>
    "device.attributes[\"" ++ driver ++ "\"]." ++ key ++ " >= " ++ Text.decimal amount.toNat

def conjunction (driver : String) (cs : List Condition) : String :=
  " && ".intercalate (cs.map (Condition.expression driver))

def safeModelName (model : String) : String :=
  Text.lower (String.ofList (model.toList.map fun c => if c = ' ' ∨ c = '/' then '-' else c))

namespace DeviceClass

def wholeCardConditions (model : String) : List Condition := [.equals "model" model, .equals "type" "NPU"]

def wholeCards (driver model : String) : DeviceClass :=
  new driver ("npu-" ++ safeModelName model ++ ".example.com")
    (conjunction driver (wholeCardConditions model)) ""

def byMemory (driver model : String) (t : Template) : DeviceClass :=
  new driver ("npu-" ++ safeModelName model ++ "-mem" ++ Text.decimal t.memoryGb.toNat ++ ".example.com")
    (conjunction driver [.atLeast "memory" t.memoryGb, .equals "model" model]) t.name

def byCores (driver model : String) (t : Template) : DeviceClass :=
  new driver ("npu-" ++ safeModelName model ++ "-aicore" ++ Text.decimal t.aiCore.toNat ++ ".example.com")
    (conjunction driver [.atLeast "aicore" t.aiCore, .equals "model" model]) t.name

end DeviceClass

def Card.modelName (c : Card) : String := if c.model = "" then "unknown" else c.model

/-- The models of the cards, each once, in order. -/
def modelNames (cards : List Card) : List String :=
  (Dict.ofList (cards.map fun c => (c.modelName, ()))).keys

def Template.smallerThan (a b : Template) : Bool :=
  a.aiCore < b.aiCore || (a.aiCore == b.aiCore && a.memoryGb < b.memoryGb)

/-- Enters a template by its shape; one of the same shape that is already there stays. -/
def enterShape : List Template → Template → List Template
  | [], t => [t]
  | s :: ss, t =>
    if t.smallerThan s then t :: s :: ss
    else if s.smallerThan t then s :: enterShape ss t
    else s :: ss

/-- For each shape that the cards support, the first template of it; the smallest shape first. -/
def shapes (cards : List Card) : List Template :=
  (cards.flatMap fun c => c.supported.toList).foldl enterShape []

def predefinedClasses (driver : String) (cards : List Card) : List DeviceClass :=
  let models := modelNames cards
  models.map (DeviceClass.wholeCards driver)
    ++ (shapes cards).flatMap fun t => models.flatMap fun model =>
      [DeviceClass.byMemory driver model t, DeviceClass.byCores driver model t]

end SliceAgent
