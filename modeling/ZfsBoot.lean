import ZfsBoot.Proofs.Atapi
import ZfsBoot.Proofs.Cdrom
import ZfsBoot.Proofs.Chs
import ZfsBoot.Proofs.Fat.Open
import ZfsBoot.Proofs.Fat.Cycle
import ZfsBoot.Proofs.Fat.Partition
import ZfsBoot.Proofs.Blk.Run
import ZfsBoot.Proofs.Blk.Table
import ZfsBoot.Proofs.E820
import ZfsBoot.Proofs.Stage2.Gate
import ZfsBoot.Proofs.Stage2.Landing
import ZfsBoot.Proofs.Stage2.Verdict
import ZfsBoot.Proofs.Init.EspSelect
import ZfsBoot.Proofs.Efi.PeSections
import ZfsBoot.Proofs.Init.Lock
import ZfsBoot.Proofs.Init.Menu
import ZfsBoot.Proofs.Tool.KeyEdit
import ZfsBoot.Proofs.Tool.Member
import ZfsBoot.Proofs.Tool.Metadata
import ZfsBoot.Proofs.Tool.DeviceName
import ZfsBoot.Proofs.Tool.Settings
import ZfsBoot.Proofs.Tool.BlkSum
import ZfsBoot.Proofs.Tool.Cmdline
import ZfsBoot.Proofs.Tool.Extent
import ZfsBoot.Proofs.Tool.Foreign
import ZfsBoot.Proofs.Tool.Gpt
import ZfsBoot.Proofs.Tool.Mounts
import ZfsBoot.Proofs.Tool.Release
import ZfsBoot.Proofs.Tool.Stages
