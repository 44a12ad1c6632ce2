import CrawlCluster.Job.Basic
import CrawlCluster.Peer

/-!
The bodies of job requests and of their answers: each type with the text it is written as and
the reader of that text. A reader takes numbers with blanks around them, except in assignments.
-/

set_option autoImplicit false

namespace CrawlCluster

inductive PayloadError where
  | argumentCount
  | jobTime
  | reasonId
  | priority
  | timeout
  | crawlId
  | crawlToken
  | languages
  | assignment (text : String)
  deriving DecidableEq, Repr

def PayloadError.message : PayloadError → String
  | .argumentCount => "Incorrect amount of arguments."
  | .jobTime => "Incorrect job time."
  | .reasonId => "Incorrect reason id."
  | .priority => "A job has an invalid priority, no jobs have been added to the queue."
  | .timeout => "A job has an invalid timeout, no jobs have been added to the queue."
  | .crawlId => "Error: invalid crawlID."
  | .crawlToken => "Error: invalid crawl token."
  | .languages => "Invalid language statistics."
  | .assignment text => "Invalid job assignment: " ++ text

/-- What was read from a field, or the error that names the field. -/
def PayloadError.expect {α : Type} (error : PayloadError) : Option α → Except PayloadError α
  | some a => .ok a
  | none => .error error

open PayloadError (expect)
open Text (trim)
open Text.Numeral (int32? int64? uint64?)

/-- A job on its way into the queue: `url F priority [F timeout]`. -/
structure NewJob where
  url : String
  /-- The larger is served sooner. -/
  priority : Int64
  /-- Seconds; without one the node's own default holds. -/
  timeout : Option Int64 := none
  deriving DecidableEq, Repr

namespace NewJob

def encode (d : Delimiters) (job : NewJob) : String :=
  d.joinFields ([job.url, job.priority.toInt.repr] ++ (job.timeout.map (·.toInt.repr)).toList)

def ofFields (url priority : String) (timeout : Option String) : Except PayloadError NewJob := do
  if url.isEmpty then throw .argumentCount
  let priority ← expect .priority (int64? (trim priority))
  match timeout with
  | none => return { url, priority }
  | some text => return { url, priority, timeout := some (← expect .timeout (int64? (trim text))) }

def parse (d : Delimiters) (line : String) : Except PayloadError NewJob :=
  match d.fields line with
  | [url, priority] => ofFields url priority none
  | [url, priority, timeout] => ofFields url priority (some timeout)
  | _ => .error .argumentCount

/-- All of the lines or none: the first bad line rejects the batch. -/
def parseBatch (d : Delimiters) (lines : List String) : Except PayloadError (List NewJob) :=
  lines.mapM (parse d)

def encodeBatch (d : Delimiters) (jobs : List NewJob) : String :=
  d.closeEntries (jobs.map (encode d))

end NewJob

/-- A held lease: `job_id F lease_time`. -/
structure Lease where
  jobId : String
  leaseTime : Int64
  deriving DecidableEq, Repr

namespace Lease

def encode (d : Delimiters) (lease : Lease) : String :=
  d.joinFields [lease.jobId, lease.leaseTime.toInt.repr]

def ofFields (jobId leaseTime : String) : Except PayloadError Lease :=
  (expect .jobTime (int64? (trim leaseTime))).map fun leaseTime => { jobId, leaseTime }

def parse (d : Delimiters) (body : String) : Except PayloadError Lease :=
  match d.fields (d.dropEntryEnd body) with
  | [jobId, leaseTime] => ofFields jobId leaseTime
  | _ => .error .argumentCount

end Lease

/-- How a leased job ended: `job_id F lease_time F reason F detail`. -/
structure Report where
  lease : Lease
  outcome : Outcome
  /-- Free text; being last, it may hold field separators. -/
  detail : String
  deriving DecidableEq, Repr

namespace Report

def encode (d : Delimiters) (report : Report) : String :=
  d.joinFields [report.lease.encode d, report.outcome.id.toInt.repr, report.detail]

def parse (d : Delimiters) (body : String) : Except PayloadError Report :=
  match Text.splitUpTo d.fieldChar 4 (d.dropEntryEnd body) with
  | [jobId, leaseTime, reason, detail] => do
    let lease ← Lease.ofFields jobId leaseTime
    let reason ← expect .reasonId (int32? (trim reason))
    return { lease, outcome := .ofId reason, detail }
  | _ => .error .argumentCount

end Report

/-- The order to crawl for new jobs, told apart by its token. -/
structure Directive where
  crawlId : Int32
  token : Int64
  deriving DecidableEq, Repr

/-- What a crawl brought in: a line `crawl_id F token`, a line of languages with their sizes,
and a line for each new job. -/
structure Harvest where
  directive : Directive
  languages : List (String × UInt64) := []
  jobs : List NewJob := []
  deriving DecidableEq, Repr

namespace Harvest

def encode (d : Delimiters) (harvest : Harvest) : String :=
  let directive := [harvest.directive.crawlId.toInt.repr, harvest.directive.token.toInt.repr]
  let languages := harvest.languages.flatMap fun (name, bytes) => [name, bytes.toNat.repr]
  d.closeEntries [d.joinFields directive, d.joinFields languages] ++
    NewJob.encodeBatch d harvest.jobs

def parseDirective (d : Delimiters) (line : String) : Except PayloadError Directive :=
  match d.fields line with
  | [crawlId, token] => do
    let crawlId ← expect .crawlId (int32? (trim crawlId))
    let token ← expect .crawlToken (int64? (trim token))
    return { crawlId, token }
  | _ => .error .argumentCount

def pairLanguages : List String → Except PayloadError (List (String × UInt64))
  | [] => .ok []
  | [_] => .error .languages
  | name :: bytes :: rest => do
    let bytes ← expect .languages (uint64? (trim bytes))
    return (name, bytes) :: (← pairLanguages rest)

def parseLanguages (d : Delimiters) (line : String) :
    Except PayloadError (List (String × UInt64)) :=
  if line.isEmpty then .ok [] else pairLanguages (d.fields line)

def parse (d : Delimiters) (body : String) : Except PayloadError Harvest :=
  match Text.split d.entryChar body with
  | [] => .error .argumentCount
  | first :: lines => do
    let directive ← parseDirective d first
    let languages ← parseLanguages d (lines.headD "")
    let jobs ← NewJob.parseBatch d ((lines.drop 1).filter fun line => !line.isEmpty)
    return { directive, languages, jobs }

end Harvest

inductive Assignment where
  | spider (jobId url : String) (leaseTime timeout : Int64)
  /-- The queue is low: crawl for more. -/
  | crawl (directive : Directive)
  /-- Nothing to do; somebody is crawling already. -/
  | idle (directive : Directive)
  deriving DecidableEq, Repr

namespace Assignment

def spiderTag : String := "Spider"
def crawlTag : String := "Crawl"
def idleTag : String := "NoJob"

def encode (d : Delimiters) : Assignment → String
  | .spider jobId url leaseTime timeout =>
    d.joinFields [spiderTag, jobId, url, leaseTime.toInt.repr, timeout.toInt.repr]
  | .crawl directive =>
    d.joinFields [crawlTag, directive.crawlId.toInt.repr, directive.token.toInt.repr]
  | .idle directive =>
    d.joinFields [idleTag, directive.crawlId.toInt.repr, directive.token.toInt.repr]

def ofFields? : List String → Option Assignment
  | [tag, jobId, url, leaseTime, timeout] =>
    if tag = spiderTag then do
      return .spider jobId url (← int64? leaseTime) (← int64? timeout)
    else none
  | [tag, crawlId, token] =>
    if tag = crawlTag then do
      return .crawl { crawlId := ← int32? crawlId, token := ← int64? token }
    else if tag = idleTag then do
      return .idle { crawlId := ← int32? crawlId, token := ← int64? token }
    else none
  | _ => none

def parse (d : Delimiters) (message : String) : Except PayloadError Assignment :=
  expect (.assignment message) (ofFields? (d.fields message))

end Assignment
end CrawlCluster
