import SliceAgent.Doc.Fields

/-!
What a container is given to use a device: environment, device nodes, hooks and mounts.
-/
namespace SliceAgent

structure DeviceNode where
  path : String
  nodeType : Option String
  permissions : Option String
deriving DecidableEq, Repr

structure Hook where
  hookName : String
  path : String
  args : List String
deriving DecidableEq, Repr

structure Mount where
  hostPath : String
  containerPath : String
  options : List String
deriving DecidableEq, Repr

structure ContainerEdits where
  env : List String
  deviceNodes : List DeviceNode
  hooks : List Hook
  mounts : List Mount
deriving DecidableEq, Repr

namespace DeviceNode

def encode (n : DeviceNode) : Json :=
  .obj (("path", .str n.path) :: Json.member? "type" .str n.nodeType
    ++ Json.member? "permissions" .str n.permissions)

def fields : Fields DeviceNode :=
  DeviceNode.mk <$> .required "path" Decoder.string <*> .optional "type" Decoder.string
    <*> .optional "permissions" Decoder.string

def decode : Decoder DeviceNode := Decoder.record "DeviceNode" fields

end DeviceNode

namespace Hook

def encode (h : Hook) : Json :=
  .obj ([("hookName", .str h.hookName), ("path", .str h.path)] ++ Json.memberList "args" .str h.args)

def fields : Fields Hook :=
  Hook.mk <$> .required "hookName" Decoder.string <*> .required "path" Decoder.string
    <*> .list "args" Decoder.string

def decode : Decoder Hook := Decoder.record "Hook" fields

end Hook

namespace Mount

def encode (m : Mount) : Json :=
  .obj ([("hostPath", .str m.hostPath), ("containerPath", .str m.containerPath)]
    ++ Json.memberList "options" .str m.options)

def fields : Fields Mount :=
  Mount.mk <$> .required "hostPath" Decoder.string <*> .required "containerPath" Decoder.string
    <*> .list "options" Decoder.string

def decode : Decoder Mount := Decoder.record "Mount" fields

end Mount

namespace ContainerEdits

def none : ContainerEdits := ⟨[], [], [], []⟩

def ofEnv (env : List String) : ContainerEdits := ⟨env, [], [], []⟩

def append (e f : ContainerEdits) : ContainerEdits :=
  ⟨e.env ++ f.env, e.deviceNodes ++ f.deviceNodes, e.hooks ++ f.hooks, e.mounts ++ f.mounts⟩

instance : Append ContainerEdits := ⟨append⟩

def isEmpty (e : ContainerEdits) : Bool :=
  e.env.isEmpty && e.deviceNodes.isEmpty && e.hooks.isEmpty && e.mounts.isEmpty

def concat (es : List ContainerEdits) : ContainerEdits := es.foldl append none

def encode (e : ContainerEdits) : Json :=
  .obj (Json.memberList "env" .str e.env ++ Json.memberList "deviceNodes" DeviceNode.encode e.deviceNodes
    ++ Json.memberList "hooks" Hook.encode e.hooks ++ Json.memberList "mounts" Mount.encode e.mounts)

def fields : Fields ContainerEdits :=
  ContainerEdits.mk <$> .list "env" Decoder.string <*> .list "deviceNodes" DeviceNode.decode
    <*> .list "hooks" Hook.decode <*> .list "mounts" Mount.decode

def decode : Decoder ContainerEdits := Decoder.record "ContainerEdits" fields

end ContainerEdits

end SliceAgent
