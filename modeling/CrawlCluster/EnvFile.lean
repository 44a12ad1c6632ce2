import CrawlCluster.Text.Blank
import CrawlCluster.Text.Split

set_option autoImplicit false

namespace CrawlCluster

structure EnvFile where
  seeds : List String := []
  ip : Option String := none
  deriving DecidableEq, Repr

namespace EnvFile

open Text (split splitFirst? trim trimBy)

def readSeeds (value : String) : List String :=
  ((split ',' value).map trim).filter fun seed => !seed.isEmpty

/-- A later line replaces what an earlier one said; an `IP` without a value says nothing. -/
def assign (name value : String) (file : EnvFile) : EnvFile :=
  if name = "SEEDS" then { file with seeds := readSeeds value }
  else if name = "IP" && !value.isEmpty then { file with ip := some value }
  else file

/-- Blank lines, comments and lines without an equals sign are passed over. -/
def readLine (file : EnvFile) (line : String) : EnvFile :=
  let line := trim line
  if line.startsWith "#" then file
  else
    match splitFirst? '=' line with
    | none => file
    | some (name, value) => file.assign (trim name) (trimBy (· == '"') (trim value))

def parse (content : String) : EnvFile := (split '\n' content).foldl readLine {}

end EnvFile
end CrawlCluster
