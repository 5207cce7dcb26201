import LedgerNode.Hash
import LedgerNode.Table

/-!
# Deployed contracts

Contracts are scripts that other scripts call by the hash of their code.

- `Contracts`: the deployed scripts by hash.
- `Contracts.deploy`: adds a script under its own hash; deploying it again changes nothing.
-/

namespace LedgerNode

/-- Deployed scripts by the hash of their code. -/
abbrev Contracts := Table Hash Bytes

/-- The table with a script deployed, under the hash of its code. -/
def Contracts.deploy (contracts : Contracts) (script : Bytes) : Contracts :=
  contracts.insertNew (Hash.digest script) script

end LedgerNode
