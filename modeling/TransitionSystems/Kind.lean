import TransitionSystems.Text.Basic

/-!
# Kinds of systems

The edges of a closed system carry one action; those of an open system carry an action of the system
and one of its environment.
-/

namespace TransitionSystems

/-- Whether the actions of a system are its own alone or shared with an environment. -/
inductive Kind where
  | closed
  | opened
  deriving DecidableEq, Inhabited

/-- The edge field that holds the action of a closed system. -/
def actionsField : Text := "actions"

/-- The edge field that holds the system's action in an open system. -/
def systemActionsField : Text := "sys_actions"

/-- The edge field that holds the environment's action in an open system. -/
def environmentActionsField : Text := "env_actions"

namespace Kind

/-- The word for a kind in model files and messages. -/
def name : Kind → Text
  | .closed => "closed"
  | .opened => "open"

/-- The edge fields of a kind, in the order in which edges keep them. -/
def fields : Kind → List Text
  | .closed => [actionsField]
  | .opened => [systemActionsField, environmentActionsField]

theorem fields_nodup (kind : Kind) : kind.fields.Nodup := by
  cases kind <;> decide

end Kind

end TransitionSystems
