import LinkerdTcp.Basic

/-! # Connector factories

`connector/mod.rs`: a factory gives the connector for a destination name,
either one connector for all names or, for a static list of prefixed
configurations, the default configuration updated by the entries whose
prefix matches. `Path` and `ConnectorConfig` are defined in files outside
the sources: `Path` follows the spec, and the configuration's `default`,
`update` and `mk_connector` are the parameters `ConfigOps`.
-/

namespace LinkerdTcp.Connector
set_option autoImplicit false

/-- Modelled from the spec: `Path`, whose file is not among the sources, is a sequence of labels. -/
structure Path where
  labels : List String
  deriving DecidableEq, Repr

/-- Modelled from the spec: `Path::starts_with(a, b)` holds when `b` is a label-wise prefix of `a`. -/
def Path.startsWith (a b : Path) : Bool := b.labels.isPrefixOf a.labels

/-- What the factory calls on `ConnectorConfig`: `default`, `update` and `mk_connector`. -/
structure ConfigOps (Config Err Connector : Type) where
  default : Config
  update : Config → Config → Config
  mkConnector : Config → Except Err Connector

structure StaticPrefixConnectorFactory (Config : Type) where
  entries : List (Path × Config)

section Factory

variable {Config Err Connector : Type} (ops : ConfigOps Config Err Connector)

def StaticPrefixConnectorFactory.mkConnector (f : StaticPrefixConnectorFactory Config)
    (dstName : Path) : Except Err Connector :=
  ops.mkConnector <| f.entries.foldl
    (fun config (pfx, c) => if pfx.startsWith dstName then ops.update config c else config)
    ops.default

inductive ConnectorFactoryInner (Config Connector : Type)
  | staticGlobal (conn : Connector)
  | staticPrefixed (f : StaticPrefixConnectorFactory Config)

structure ConnectorFactory (Config Connector : Type) where
  inner : ConnectorFactoryInner Config Connector

def ConnectorFactory.newGlobal (conn : Connector) : ConnectorFactory Config Connector :=
  ⟨.staticGlobal conn⟩

def ConnectorFactory.newPrefixed (prefixedConfigs : List (Path × Config)) :
    ConnectorFactory Config Connector :=
  ⟨.staticPrefixed ⟨prefixedConfigs⟩⟩

def ConnectorFactory.mkConnector (factory : ConnectorFactory Config Connector) (dstName : Path) :
    Except Err Connector :=
  match factory.inner with
  | .staticGlobal c => .ok c
  | .staticPrefixed f => f.mkConnector ops dstName

/-- For `/svc` the entry for `/svc/foo` is applied, and for `/svc/foo` the entry for `/svc` is not. -/
theorem mkConnector_applies_longer_prefixes (c : Config) :
    (ConnectorFactory.newPrefixed [(⟨["svc"]⟩, c)] : ConnectorFactory Config Connector).mkConnector
        ops ⟨["svc", "foo"]⟩ = ops.mkConnector ops.default ∧
    (ConnectorFactory.newPrefixed [(⟨["svc", "foo"]⟩, c)] : ConnectorFactory Config Connector).mkConnector
        ops ⟨["svc"]⟩ = ops.mkConnector (ops.update ops.default c) := by
  constructor <;> rfl

end Factory

end LinkerdTcp.Connector
