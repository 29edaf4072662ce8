import NvidiaProlapse.ReclaimRuns
import NvidiaProlapse.NoLostWakeup
import NvidiaProlapse.SubmitRollback
import NvidiaProlapse.CapturedSlots
import NvidiaProlapse.EarlyWait
import NvidiaProlapse.SharedGenerations
import NvidiaProlapse.H264LongTerm
import NvidiaProlapse.InitialLists
import NvidiaProlapse.DisplayOrder
import NvidiaProlapse.HevcWindow
import NvidiaProlapse.UnitAgreement
import NvidiaProlapse.Superframes
import NvidiaProlapse.IdleAdmission
import NvidiaProlapse.Av1SlotSurfaces
import NvidiaProlapse.CopyOut
import NvidiaProlapse.MediaRuns
import NvidiaProlapse.MediaConservation
import NvidiaProlapse.CommandDecode
import NvidiaProlapse.CpuLeaseRuns
import NvidiaProlapse.TexturePoolRuns
import NvidiaProlapse.QueueContext
import NvidiaProlapse.ShaderHeapRuns
import NvidiaProlapse.QueryRuns
import NvidiaProlapse.EngineStatus
import NvidiaProlapse.FilmGrain
import NvidiaProlapse.HevcTiles
import NvidiaProlapse.BufferLayouts
import NvidiaProlapse.ImageBinds
import NvidiaProlapse.Scandir
import NvidiaProlapse.ExpGolomb
