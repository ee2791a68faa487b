-- SUMMARY: Roles of components within an architectural style, and how a role is chosen.
import ArchAudit.Component.Basic
import ArchAudit.Role.Tokens

/-!
# Roles

A role is suggested by keywords in a component's name, which count fully, or in its
directories, which count less, and by hints from its place in the graph. The first
role with the best score wins, provided the score is high enough.
-/

namespace ArchAudit

inductive Role where
  | controller
  | service
  | repository
  | domain
  | port
  | adapter
  | infrastructure
  | entity
  | useCase
  | interfaceAdapter
  | framework
  | apiGateway
  | microservice
  | dataStore
  | producer
  | broker
  | consumer
deriving DecidableEq, Repr

instance : Named Role where
  all := [.controller, .service, .repository, .domain, .port, .adapter, .infrastructure, .entity,
    .useCase, .interfaceAdapter, .framework, .apiGateway, .microservice, .dataStore, .producer,
    .broker, .consumer]
  name
    | .controller => "controller"
    | .service => "service"
    | .repository => "repository"
    | .domain => "domain"
    | .port => "port"
    | .adapter => "adapter"
    | .infrastructure => "infrastructure"
    | .entity => "entity"
    | .useCase => "use-case"
    | .interfaceAdapter => "interface-adapter"
    | .framework => "framework"
    | .apiGateway => "api-gateway"
    | .microservice => "microservice"
    | .dataStore => "data-store"
    | .producer => "producer"
    | .broker => "broker"
    | .consumer => "consumer"

-- ---------------------------------------------------------------------------
-- Hints
-- ---------------------------------------------------------------------------

/-- Evidence for a role from the shape of the graph. -/
inductive StructuralHint where
  /-- Declares an abstraction, is well encapsulated and has two dependents. -/
  | abstraction
  /-- Depends on nothing and has two dependents. -/
  | stable
  /-- Depends on something and has no dependents. -/
  | entryPoint
  /-- Lives in a service directory. -/
  | serviceMember
deriving DecidableEq, Repr

instance : Named StructuralHint where
  all := [.abstraction, .stable, .entryPoint, .serviceMember]
  name
    | .abstraction => "abstraction"
    | .stable => "stable"
    | .entryPoint => "entry-point"
    | .serviceMember => "service-member"

/-- What is known of a component beyond its node. -/
structure RoleSignals where
  wellEncapsulated : Bool
  inService : Bool
deriving DecidableEq, Repr

namespace StructuralHint

variable {α : Type}

def holds (h : StructuralHint) (c : Component α) (signals : RoleSignals) : Bool :=
  match h with
  | .abstraction =>
    c.declaresAbstraction && 2 ≤ c.metrics.afferent && signals.wellEncapsulated
  | .stable => c.metrics.efferent = 0 && 2 ≤ c.metrics.afferent
  | .entryPoint => c.metrics.afferent = 0 && 1 ≤ c.metrics.efferent
  | .serviceMember => signals.inService

/-- What the hint adds to a score where it holds. -/
def strength [Scalar α] : StructuralHint → α
  | .abstraction => 0.6
  | .stable => 0.3
  | .entryPoint => 0.3
  | .serviceMember => 0.6

def bonus [Scalar α] (h : StructuralHint) (c : Component α) (signals : RoleSignals) : α :=
  if h.holds c signals then h.strength else 0.0

end StructuralHint

-- ---------------------------------------------------------------------------
-- Tokens
-- ---------------------------------------------------------------------------

/-- The words of a component's name and of its directories. -/
structure ComponentTokens where
  name : NameSet
  directories : NameSet
deriving DecidableEq, Repr

/-- The part of a file name before its first dot. -/
def fileStem (file : String) : String :=
  String.ofList (file.toList.takeWhile (· ≠ '.'))

def ComponentTokens.ofComponent {α : Type} (c : Component α) : ComponentTokens :=
  let parts := (Text.split (· = '/') c.filePath).filter (!·.isEmpty)
  let stem := match parts.getLast? with
    | some file => Tokens.tokenize (fileStem file)
    | none => []
  { name := .ofList (Tokens.tokenize c.name ++ stem)
    directories := .ofList (parts.dropLast.flatMap Tokens.tokenize) }

/-- Whether the keyword, or a plural of it, is among the words. -/
def matchesKeyword (words : NameSet) (keyword : String) : Bool :=
  words.contains keyword || words.contains (keyword ++ "s") || words.contains (keyword ++ "es")

-- ---------------------------------------------------------------------------
-- Scoring
-- ---------------------------------------------------------------------------

/-- What speaks for a role. -/
structure RoleRule where
  role : Role
  keywords : List String
  hints : List StructuralHint
deriving DecidableEq, Repr

namespace RoleRule

variable {α : Type} [Scalar α]

/-- A keyword in the name counts fully, one in a directory a little less. -/
def keywordScore (rule : RoleRule) (tokens : ComponentTokens) : α :=
  if rule.keywords.any (matchesKeyword tokens.name) then 1.0
  else if rule.keywords.any (matchesKeyword tokens.directories) then 0.8
  else 0.0

/-- Keyword score and hints together, at most one. -/
def score (rule : RoleRule) (tokens : ComponentTokens) (c : Component α) (signals : RoleSignals) :
    α :=
  Scalar.least
    (rule.keywordScore tokens + Scalar.sum (rule.hints.map fun h => h.bonus c signals)) 1.0

end RoleRule

/-- The least score that assigns a role. -/
def minRoleScore {α : Type} [Scalar α] : α := 0.5

/-- Keeps the better of the best role so far and a further one; the earlier wins a
    tie. -/
def betterRole {α : Type} [Scalar α] (best : Option (Role × α)) (next : Role × α) :
    Option (Role × α) :=
  if next.2 < minRoleScore then best
  else match best with
    | none => some next
    | some (role, score) => if score < next.2 then some next else some (role, score)

/-- The best role of a component under the rules, with its score. -/
def classifyRole {α : Type} [Scalar α] (rules : List RoleRule) (c : Component α)
    (signals : RoleSignals) : Option (Role × α) :=
  let tokens := ComponentTokens.ofComponent c
  (rules.map fun rule => (rule.role, rule.score tokens c signals)).foldl betterRole none

end ArchAudit
