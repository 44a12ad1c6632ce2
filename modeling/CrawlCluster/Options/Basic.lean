import CrawlCluster.EnvFile
import CrawlCluster.Options.Value
import CrawlCluster.Parameters

set_option autoImplicit false

namespace CrawlCluster

/-- What was said; none where nothing was. -/
structure Options where
  listen : Option Net.Endpoint := none
  advertise : Option String := none
  seeds : Option (List String) := none
  envFile : Option String := none
  assumeLeader : Bool := false
  dbAddress : Option String := none
  dbPort : Option UInt16 := none
  heartbeatMillis : Option UInt64 := none
  fieldDelimiter : Option UInt8 := none
  entryDelimiter : Option UInt8 := none
  deriving DecidableEq, Repr

namespace Options

inductive Name where
  | listen
  | advertise
  | seeds
  | envFile
  | dbAddress
  | dbPort
  | heartbeatMillis
  | fieldDelimiter
  | entryDelimiter
  deriving DecidableEq, Repr

namespace Name

def all : List Name :=
  [.listen, .advertise, .seeds, .envFile, .dbAddress, .dbPort, .heartbeatMillis,
    .fieldDelimiter, .entryDelimiter]

def text : Name → String
  | .listen => "listen"
  | .advertise => "advertise"
  | .seeds => "seeds"
  | .envFile => "env-file"
  | .dbAddress => "db-addr"
  | .dbPort => "db-port"
  | .heartbeatMillis => "heartbeat-ms"
  | .fieldDelimiter => "field-delimiter"
  | .entryDelimiter => "entry-delimiter"

def ofText? (text : String) : Option Name := all.find? (·.text == text)

/-- The environment variable that stands in for the option. -/
def envName? : Name → Option String
  | .listen => some "FLEETD_LISTEN"
  | .advertise => some "IP"
  | .seeds => some "SEEDS"
  | .dbAddress => some "FLEETD_DB_ADDR"
  | .dbPort => some "FLEETD_DB_PORT"
  | .envFile | .heartbeatMillis | .fieldDelimiter | .entryDelimiter => none

end Name

inductive UsageError where
  | missingValue
  | rejectedValue (text : String)
  | unknownArgument
  | repeatedOption
  | unexpectedValue
  | helpWanted
  deriving DecidableEq, Repr

/-- The reason a value was turned down; the other errors have no text of their own. -/
def UsageError.text? : UsageError → Option String
  | .rejectedValue text => some text
  | _ => none

def UsageError.message : UsageError → String
  | .missingValue => "an option lacks its value"
  | .rejectedValue text => "invalid value: " ++ text
  | .unknownArgument => "unexpected argument"
  | .repeatedOption => "an option is given twice"
  | .unexpectedValue => "a value for an option that takes none"
  | .helpWanted => "help"

def accept {α : Type} : Except String α → Except UsageError α
  | .ok value => .ok value
  | .error text => .error (.rejectedValue text)

def isGiven (o : Options) : Name → Bool
  | .listen => o.listen.isSome
  | .advertise => o.advertise.isSome
  | .seeds => o.seeds.isSome
  | .envFile => o.envFile.isSome
  | .dbAddress => o.dbAddress.isSome
  | .dbPort => o.dbPort.isSome
  | .heartbeatMillis => o.heartbeatMillis.isSome
  | .fieldDelimiter => o.fieldDelimiter.isSome
  | .entryDelimiter => o.entryDelimiter.isSome

def put (value : String) (o : Options) : Name → Except UsageError Options
  | .listen => return { o with listen := some (← accept (readEndpoint value)) }
  | .advertise => return { o with advertise := some value }
  | .seeds => return { o with seeds := some (o.seeds.getD [] ++ Text.split ',' value) }
  | .envFile =>
    if value.isEmpty then throw .missingValue else return { o with envFile := some value }
  | .dbAddress => return { o with dbAddress := some value }
  | .dbPort => return { o with dbPort := some (← accept (readPort value)) }
  | .heartbeatMillis => return { o with heartbeatMillis := some (← accept (readCount value)) }
  | .fieldDelimiter => return { o with fieldDelimiter := some (← accept (readDelimiter value)) }
  | .entryDelimiter => return { o with entryDelimiter := some (← accept (readDelimiter value)) }

/-- Only seeds may be given more than once. -/
def set (value : String) (o : Options) (name : Name) : Except UsageError Options :=
  if o.isGiven name && name != .seeds then .error .repeatedOption else o.put value name

def setFrom (env : List (String × String)) (o : Options) (name : Name) :
    Except UsageError Options :=
  match name.envName?.bind fun v => env.lookup v with
  | some value => if o.isGiven name then .ok o else o.put value name
  | none => .ok o

def withEnvironment (env : List (String × String)) (o : Options) : Except UsageError Options :=
  Name.all.foldlM (setFrom env) o

structure InvalidSeed where
  text : String
  deriving DecidableEq, Repr

def InvalidSeed.message (e : InvalidSeed) : String := "invalid seed: " ++ e.text

def readSeed (text : String) : Except InvalidSeed Peer :=
  match Peer.ofHostPort? text Peer.defaultPort with
  | some peer => .ok peer
  | none => .error ⟨text⟩

def readSeeds (texts : List String) : Except InvalidSeed (List Peer) :=
  ((texts.map Text.trim).filter fun seed => !seed.isEmpty).mapM readSeed

def defaultListen : Net.Endpoint := { ip := .v4 0 0 0 0, port := Peer.defaultPort }

/-- What a node is set up with. A leader is given up after ten heartbeats missed. -/
def parameters (file : EnvFile) (o : Options) : Except InvalidSeed Parameters := do
  let said := o.seeds.getD []
  let seeds ← readSeeds (if said.isEmpty then file.seeds else said)
  let base : Parameters := {}
  let heartbeatPeriod := match o.heartbeatMillis with
    | some ms => Clock.Span.ofMillis ms.toNat
    | none => base.heartbeatPeriod
  let delimiters := base.jobs.delimiters
  let delimiters :=
    ⟨o.fieldDelimiter.getD delimiters.field, o.entryDelimiter.getD delimiters.entry⟩
  return { base with
    bind := o.listen.getD defaultListen
    advertise := o.advertise.or file.ip
    seeds
    assumeLeader := o.assumeLeader
    db := ⟨o.dbAddress.getD base.db.address, o.dbPort.getD base.db.port⟩
    heartbeatPeriod
    leaderTimeout := heartbeatPeriod.times 10
    jobs := { base.jobs with delimiters } }

end Options
end CrawlCluster
