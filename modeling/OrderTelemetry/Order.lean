import OrderTelemetry.Text.Blank

/-!
# Order types and outcomes

The closed sets that the dashboard distinguishes: three order types and two outcomes.  A broker
names order types freely, so every text has an order type (`OrderType.ofText`); an outcome is one of
two words or a mistake (`OrderStatus.ofText?`).
-/

namespace OrderTelemetry

/-- The order types that the dashboard tells apart. -/
inductive OrderType where
  | market
  | limit
  | other
  deriving DecidableEq, Repr, Inhabited

namespace OrderType

/-- The word for an order type. -/
def name : OrderType → String
  | market => "MARKET"
  | limit => "LIMIT"
  | other => "OTHER"

/-- All order types. -/
def all : List OrderType := [market, limit, other]

/-- The order type that a broker's word stands for.  Surrounding blanks and the case of letters do
not matter, and all that is not a market or a limit order is `other`. -/
def ofText (raw : String) : OrderType :=
  let word := Text.upper (Text.trim raw)
  if word = "MARKET" ∨ word = "MKT" then market
  else if word = "LIMIT" ∨ word = "LMT" then limit
  else other

end OrderType

/-- How an order operation ended. -/
inductive OrderStatus where
  | success
  | failure
  deriving DecidableEq, Repr, Inhabited

namespace OrderStatus

/-- The word for an outcome. -/
def name : OrderStatus → String
  | success => "SUCCESS"
  | failure => "FAILURE"

/-- Whether the order failed. -/
def isFailure : OrderStatus → Bool
  | success => false
  | failure => true

/-- The outcome that a word stands for, whatever its case and surrounding blanks. -/
def ofText? (raw : String) : Option OrderStatus :=
  let word := Text.upper (Text.trim raw)
  if word = "SUCCESS" then some success
  else if word = "FAILURE" then some failure
  else none

end OrderStatus

end OrderTelemetry
