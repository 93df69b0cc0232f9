import PdeOperator.BaseJson

/-! The settings that the modelled code reads, with their defaults, and the two parsers of the
Python standard library that delivered data goes through. -/

namespace PdeOperator
open Base

structure Settings where
  apiPrefix : Text := "/api/v1".toList
  apiAdminToken : Text := []
  jobTokenSigningKey : Text := []
  jobTokenTtlSeconds : Int := 172800
  executionUrlBase : Text := "http://localhost:8000".toList
  operatorBaseUrl : Text := "http://host.minikube.internal:8000".toList
  k8sJobCreationEnabled : Bool := true
  queueEnabled : Bool := true
  maxConcurrentRuns : Int := 8
  reconcilerStuckTimeoutSeconds : Int := 300
  cancelGraceSeconds : Int := 60
  pdeDeliveryStatusInterval : Int := 5
  pdeDeliveryReportInterval : Int := 15
  pdeDeliveryLogInterval : Int := 15
  schedulesMissedGraceSeconds : Int := 120
  schedulesMinIntervalSeconds : Int := 60
  schedulesBatchSize : Nat := 20
  externalSecretsMountPath : Text := "/var/run/secrets/pde-external".toList

/-- `datetime.fromisoformat` followed by the conversion to UTC (naive values are taken as UTC), and
`json.loads`. `none` stands for the exceptions that the callers catch. -/
structure Parsers where
  fromIsoFormat : Text → Option Int
  jsonLoads : List UInt8 → Option Json

end PdeOperator
