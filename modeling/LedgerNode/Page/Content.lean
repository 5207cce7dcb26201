import LedgerNode.Config
import LedgerNode.Bytes.Basic

/-!
# The content of the diagnostics page

The page of a node shows its settings, the height of its chain and the nodes that it is connected
to, in the order of the addresses at which those show theirs.

- `NodeView`, `LedgerView`: what a node knows of itself, its neighbours and the chain.
- `Page`: all that is shown.
- `Page.collect`: the content of a node's page.
-/

namespace LedgerNode

/-- What a node does for the chain. -/
inductive NodeRole where
  /-- It keeps the books. -/
  | verify
  /-- It serves clients. -/
  | service
deriving DecidableEq, Repr

/-- The name of a role. -/
def NodeRole.label : NodeRole → String
  | verify => "Verify Node"
  | service => "Service Node"

/-- A node that another is connected to. -/
structure Neighbor where
  id : UInt64
  publicKey : Bytes
  address : String
  /-- The port at which it shows its page. -/
  infoPort : UInt16
  /-- Whether it shows its page. -/
  isInfoOpen : Bool
deriving DecidableEq, Repr

/-- What a node knows of itself and its neighbours. -/
structure NodeView where
  id : UInt64
  publicKey : Bytes
  neighbors : List Neighbor := []
deriving DecidableEq, Repr

/-- What a node knows of the chain. -/
structure LedgerView where
  blockHeight : UInt32 := 0
  /-- The keys of the nodes that keep the books. -/
  bookkeepers : List Bytes
deriving DecidableEq, Repr

/-- The role of the node with a given key. -/
def LedgerView.role (ledger : LedgerView) (publicKey : Bytes) : NodeRole :=
  if publicKey ∈ ledger.bookkeepers then .verify else .service

/-- What the page shows of a neighbour. -/
structure Page.Row where
  id : String
  role : NodeRole
  address : String
  /-- The address at which the neighbour shows its page. -/
  infoAddress : String
  infoPort : UInt16
  isInfoOpen : Bool
deriving DecidableEq, Repr

/-- What the page shows. -/
structure Page where
  version : String
  blockHeight : UInt32
  neighborCount : Nat
  rows : List Page.Row
  restPort : UInt16
  webSocketPort : UInt16
  jsonPort : UInt16
  localPort : UInt16
  nodePort : UInt16
  nodeId : String
  role : NodeRole
deriving DecidableEq, Repr

namespace Page

/-- The form in which the number of a node is shown. -/
def idText (id : UInt64) : String :=
  "0x" ++ Text.hexNumeral id.toNat

/-- What the page shows of a neighbour. -/
def Row.ofNeighbor (ledger : LedgerView) (n : Neighbor) : Row where
  id := idText n.id
  role := ledger.role n.publicKey
  address := n.address
  infoAddress := n.address ++ ":" ++ Text.numeral n.infoPort.toNat
  infoPort := n.infoPort
  isInfoOpen := n.isInfoOpen

/-- Whether a row may stand before another: their addresses ascend as byte strings. -/
def Row.precedes (a b : Row) : Bool :=
  Bytes.ofText a.infoAddress ≤ Bytes.ofText b.infoAddress

/-- The content of a node's page. Neighbours of one address keep their order. -/
def collect (config : Config) (node : NodeView) (ledger : LedgerView) : Page where
  version := config.version
  blockHeight := ledger.blockHeight
  neighborCount := node.neighbors.length
  rows := (node.neighbors.map (Row.ofNeighbor ledger)).mergeSort Row.precedes
  restPort := config.restPort
  webSocketPort := config.webSocketPort
  jsonPort := config.jsonPort
  localPort := config.localPort
  nodePort := config.nodePort
  nodeId := idText node.id
  role := ledger.role node.publicKey

end Page

end LedgerNode
