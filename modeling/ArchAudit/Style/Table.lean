-- SUMMARY: The roles and rules of each architectural style.
import ArchAudit.Style.Kind
import ArchAudit.Style.Rule

/-!
# Style tables

A style is described by its roles, in order of priority, and by the rule for
dependencies between them.
-/

namespace ArchAudit

structure StyleTable where
  style : StyleKind
  roles : List RoleRule
  rule : EdgeRule
deriving DecidableEq, Repr

namespace StyleTable

def layered : StyleTable where
  style := .layered
  roles :=
    [{ role := .controller
       keywords := ["controller", "handler", "endpoint", "route", "router", "view", "resource",
         "presentation", "web", "rest", "http", "ui"]
       hints := [.entryPoint] },
     { role := .service
       keywords := ["service", "manager", "application", "logic", "business", "workflow"]
       hints := [] },
     { role := .repository
       keywords := ["repository", "repo", "dao", "store", "persistence", "storage", "database",
         "db", "mapper"]
       hints := [] }]
  rule := .adjacentDownward [.controller, .service, .repository]

def hexagonal : StyleTable where
  style := .hexagonal
  roles :=
    [{ role := .domain
       keywords := ["domain", "model", "entity", "core", "aggregate"]
       hints := [.stable] },
     { role := .port
       keywords := ["port", "contract", "spi"]
       hints := [.abstraction] },
     { role := .adapter
       keywords := ["adapter", "controller", "handler", "cli", "rest", "http", "grpc", "web",
         "presenter"]
       hints := [] },
     { role := .infrastructure
       keywords := ["infrastructure", "infra", "persistence", "database", "db", "postgres",
         "mysql", "sqlite", "redis", "client", "driver", "config"]
       hints := [] }]
  rule := .pairs
    [(.adapter, .port), (.port, .domain), (.adapter, .domain), (.adapter, .infrastructure)]
    [(.domain, .adapter), (.domain, .infrastructure)]

def clean : StyleTable where
  style := .clean
  roles :=
    [{ role := .entity
       keywords := ["entity", "domain", "model", "aggregate"]
       hints := [.stable] },
     { role := .useCase
       keywords := ["usecase", "interactor", "application", "command", "query", "service"]
       hints := [] },
     { role := .interfaceAdapter
       keywords := ["controller", "presenter", "gateway", "adapter", "repository", "handler",
         "view"]
       hints := [] },
     { role := .framework
       keywords := ["framework", "infrastructure", "infra", "db", "database", "web", "driver",
         "server", "main", "config"]
       hints := [.entryPoint] }]
  rule := .inward [.framework, .interfaceAdapter, .useCase, .entity]

def microservices : StyleTable where
  style := .microservices
  roles :=
    [{ role := .apiGateway
       keywords := ["gateway", "apigateway", "bff", "proxy", "edge"]
       hints := [] },
     { role := .dataStore
       keywords := ["database", "db", "datastore", "store", "storage", "repository", "repo",
         "cache", "persistence", "schema", "migration"]
       hints := [] },
     { role := .microservice
       keywords := ["microservice", "service", "svc", "server", "api"]
       hints := [.serviceMember] }]
  rule := .serviceBoundary

def eventDriven : StyleTable where
  style := .eventDriven
  roles :=
    [{ role := .producer
       keywords := ["producer", "publisher", "emitter", "sender", "dispatcher", "notifier"]
       hints := [] },
     { role := .broker
       keywords := ["broker", "bus", "eventbus", "messagebus", "queue", "topic", "channel",
         "kafka", "rabbitmq", "nats", "exchange", "stream"]
       hints := [] },
     { role := .consumer
       keywords := ["consumer", "subscriber", "listener", "handler", "worker", "processor",
         "sink"]
       hints := [] }]
  rule := .pairs [(.producer, .broker), (.broker, .consumer)] [(.producer, .consumer)]

/-- The table of a style. -/
def ofKind : StyleKind → StyleTable
  | .layered => layered
  | .hexagonal => hexagonal
  | .clean => clean
  | .microservices => microservices
  | .eventDriven => eventDriven

/-- All tables, in the order of their styles. -/
def builtin : List StyleTable :=
  (Named.all : List StyleKind).map ofKind

end StyleTable

end ArchAudit
