import Base101.ProtocolDeadlines
import Base101.WheelsBraking
import Base101.Ros
import Base101.Firmware
import Base101.FirmwareLockstep
import Base101.ParameterRanges
import Base101.FirmwareParameters
import Base101.GlideEnvelope
import Base101.GlideCurvature
import Base101.CommandRatio
import Base101.GlideRamp
import Base101.TimeSyncNetwork
import Base101.GyroWindow
import Base101.ConfigurationRoundTrip
import Base101.TrialResults
import Base101.OperatorOrder
import Base101.GlideWindup
import Base101.GlideSymmetry
import Base101.MotorTerminalRest
import Base101.RosRestart
import Base101.SerialExchange
import Base101.ResultStore
import Base101.SerialChecksum
import Base101.Picoserdes
import Base101.OdometryPath
import Base101.GyroFilter
import Base101.SkidRatio
import Base101.GlideGyro
import Base101.MeasuredSpeed
import Base101.Quantization
import Base101.OdometryInverse
import Base101.ProfileRamp
import Base101.GapCount
import Base101.TrialRecords
import Base101.SkidFit
import Base101.JerkAdvice
