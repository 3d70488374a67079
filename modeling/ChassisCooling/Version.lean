/-! # The version of the programs -/

namespace ChassisCooling

/-- The version of the daemon and of its client. -/
def version : String := "0.3.1"

end ChassisCooling
